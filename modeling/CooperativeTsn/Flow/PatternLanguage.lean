import CooperativeTsn.Flow.PatternMatcher
import CooperativeTsn.Infra.Readers

/-!
# What a pattern matches

The elements of a pattern as readers. `doMatch` looks for a way through them, with two shortcuts at a
`**` near the end of the pattern and one in `matches` for the last two characters of the line. None
of them changes what is matched, but for the case of the letters behind a last `**`.

* `doMatch_iff` — the search finds a way if there is one
* `matches_iff` — the shortcuts agree with the plain search
* `matches_widen` — substring mode looks for a part of the line
* `pattern_language` — what the pattern of a text matches
-/

namespace CooperativeTsn.PatternMatcher

open Infra.Readers Infra.Runs

variable {casesensitive : Bool} {pattern : List Elem} {line s t : List Char}

/-! ## The meaning of a pattern -/

/-- The same character, up to its case unless case matters. -/
def SameChar (casesensitive : Bool) (c d : Char) : Prop :=
  if casesensitive then c = d else c.toLower = d.toLower

/-- A character of one of the ranges, which are in upper case unless case matters. -/
def InSet (casesensitive : Bool) (ranges : List (Char × Char)) (c : Char) : Prop :=
  ∃ range ∈ ranges, range.1 ≤ (if casesensitive then c else c.toUpper) ∧
    (if casesensitive then c else c.toUpper) ≤ range.2

/-- A number within the bounds that are there. -/
def InBounds (fromnum tonum : Option Int) (digits : List Char) : Prop :=
  (∀ n ∈ fromnum, n ≤ number digits) ∧ ∀ n ∈ tonum, number digits ≤ n

/-- What an element may leave of a text. A number takes all digits that are there. -/
def Elem.reader (casesensitive : Bool) : Elem → Reader Char
  | .literalString text => word (SameChar casesensitive) text
  | .anyChar => symbol fun _ => True
  | .commonChar => symbol fun c => c ≠ '.'
  | .set ranges => symbol (InSet casesensitive ranges)
  | .negSet ranges => symbol fun c => ¬ InSet casesensitive ranges c
  | .numRange fromnum tonum => run (fun c => c.isDigit = true) (InBounds fromnum tonum)
  | .anySeq => many fun _ => True
  | .commonSeq => many fun c => c ≠ '.'

/-- What a pattern may leave of a text. -/
def Reads (casesensitive : Bool) (pattern : List Elem) : Reader Char :=
  sequence (pattern.map (Elem.reader casesensitive))

theorem Elem.reader_forward (e : Elem) : (e.reader casesensitive).Forward := by
  cases e with
  | literalString text => exact word_suffix _ text
  | numRange fromnum tonum => exact run_suffix _ _
  | anySeq => exact many_suffix _
  | commonSeq => exact many_suffix _
  | _ => exact symbol_suffix _

theorem Reads.suffix (h : Reads casesensitive pattern s t) : t <:+ s := by
  refine sequence_suffix (fun r hr => ?_) s t h
  obtain ⟨e, -, rfl⟩ := List.mem_map.mp hr
  exact e.reader_forward

theorem reads_cons {e : Elem} : Reads casesensitive (e :: pattern) s t ↔
    ∃ u, e.reader casesensitive s u ∧ Reads casesensitive pattern u t := Iff.rfl

/-- **A pattern is read part by part.** -/
theorem reads_append {pattern' : List Elem} : Reads casesensitive (pattern ++ pattern') s t ↔
    ∃ u, Reads casesensitive pattern s u ∧ Reads casesensitive pattern' u t := by
  unfold Reads
  rw [List.map_append]
  exact sequence_append

/-! ## The tests of the matcher -/

theorem sameChar_iff {c d : Char} :
    sameChar casesensitive c d = true ↔ SameChar casesensitive c d := by
  unfold sameChar SameChar
  split <;> exact decide_eq_true_iff

theorem isInSet_iff {ranges : List (Char × Char)} {c : Char} :
    isInSet casesensitive c ranges = true ↔ InSet casesensitive ranges c := by
  simp only [isInSet, InSet, List.any_eq_true, decide_eq_true_eq]

theorem inBounds_iff {fromnum tonum : Option Int} {digits : List Char} :
    inBounds (number digits) fromnum tonum = true ↔ InBounds fromnum tonum digits := by
  simp only [inBounds, InBounds, Bool.and_eq_true, Option.all_eq_true, decide_eq_true_eq]
  rfl

/-- A literal in front of the line. -/
theorem startsWith_word {text : List Char} : startsWith casesensitive text s = true ↔
    word (SameChar casesensitive) text s (s.drop text.length) := by
  induction text generalizing s with
  | nil =>
    rw [word_nil]
    exact ⟨fun _ => rfl, fun _ => rfl⟩
  | cons c text ih =>
    rw [word_cons]
    cases s with
    | nil =>
      constructor
      · intro h
        cases h
      · rintro ⟨d, u, h, -⟩
        cases h
    | cons d s =>
      rw [startsWith, Bool.and_eq_true, sameChar_iff, ih, List.length_cons, List.drop_succ_cons]
      constructor
      · rintro ⟨hsame, hword⟩
        exact ⟨d, s, rfl, hsame, hword⟩
      · rintro ⟨d', u, h, hsame, hword⟩
        cases h
        exact ⟨hsame, hword⟩

/-- A literal leaves what is behind its length. -/
theorem word_rest {same : Char → Char → Prop} {text : List Char} (h : word same text s t) :
    t = s.drop text.length := by
  obtain ⟨text', hsame, rfl⟩ := h
  rw [hsame.length_eq, List.drop_left]

/-! ## The search -/

/-- The pattern ends in `**` and a literal, which is compared with the end of the line as it is. -/
def EndsInSuffix (pattern : List Elem) : Prop :=
  ∃ text, [.anySeq, .literalString text] <:+ pattern

theorem EndsInSuffix.cons {e : Elem} (h : EndsInSuffix pattern) : EndsInSuffix (e :: pattern) := by
  obtain ⟨text, hsuffix⟩ := h
  exact ⟨text, hsuffix.trans (List.suffix_cons e pattern)⟩

/-- A line that ends in the literal has the literal somewhere, at its end. -/
theorem reads_suffix {text : List Char} :
    Reads true [.anySeq, .literalString text] s [] ↔ text <:+ s := by
  rw [reads_cons]
  constructor
  · rintro ⟨u, hany, hword⟩
    have hsame : SameChar true = Eq := by
      funext c d
      simp [SameChar]
    have hliteral : word (SameChar true) text u [] := sequence_singleton.mp hword
    rw [hsame, word_eq, List.append_nil] at hliteral
    rw [← hliteral]
    exact many_true.mp hany
  · intro h
    refine ⟨text, many_true.mpr h, sequence_singleton.mpr ⟨text, ?_, (List.append_nil text).symm⟩⟩
    refine List.forall₂_same.mpr fun c _ => ?_
    simp [SameChar]

theorem symbol_reads_nil {kind : Char → Prop} :
    ¬ ∃ u, symbol kind [] u ∧ Reads casesensitive pattern u t := by
  rintro ⟨u, h, -⟩
  exact symbol_nil h

theorem symbol_reads_cons {kind : Char → Prop} {c : Char} :
    (∃ u, symbol kind (c :: s) u ∧ Reads casesensitive pattern u t) ↔
      kind c ∧ Reads casesensitive pattern s t := by
  constructor
  · rintro ⟨u, h, hreads⟩
    obtain ⟨hc, rfl⟩ := symbol_cons.mp h
    exact ⟨hc, hreads⟩
  · rintro ⟨hc, hreads⟩
    exact ⟨s, symbol_cons.mpr ⟨hc, rfl⟩, hreads⟩

/-- Trying one end of the text after the other. -/
theorem any_tails_iff (h : ∀ u, doMatch casesensitive pattern u = true ↔
      Reads casesensitive pattern u []) :
    s.tails.any (doMatch casesensitive pattern) = true ↔
      Reads casesensitive (.anySeq :: pattern) s [] := by
  rw [List.any_eq_true, reads_cons]
  constructor
  · rintro ⟨u, hu, hmatch⟩
    exact ⟨u, many_true.mpr ((List.mem_tails u s).mp hu), (h u).mp hmatch⟩
  · rintro ⟨u, hany, hreads⟩
    exact ⟨u, (List.mem_tails u s).mpr (many_true.mp hany), (h u).mpr hreads⟩

/-- The search behind a star stops at a dot. -/
theorem any_component_iff (h : ∀ u, doMatch casesensitive pattern u = true ↔
      Reads casesensitive pattern u []) :
    (s.tails.any fun u => doMatch casesensitive pattern u &&
        '.' ∉ s.take (s.length - u.length)) = true ↔
      Reads casesensitive (.commonSeq :: pattern) s [] := by
  have hdots : ∀ w : List Char, '.' ∉ w ↔ ∀ c ∈ w, c ≠ '.' := by
    intro w
    constructor
    · rintro hw c hc rfl
      exact hw hc
    · intro hw hdot
      exact hw '.' hdot rfl
  rw [List.any_eq_true, reads_cons]
  constructor
  · rintro ⟨u, hu, hmatch⟩
    rw [Bool.and_eq_true, decide_eq_true_eq, hdots] at hmatch
    exact ⟨u, many_iff_tails.mpr ⟨hu, hmatch.2⟩, (h u).mp hmatch.1⟩
  · rintro ⟨u, hmany, hreads⟩
    obtain ⟨hu, hkind⟩ := many_iff_tails.mp hmany
    refine ⟨u, hu, ?_⟩
    rw [Bool.and_eq_true, decide_eq_true_eq, hdots]
    exact ⟨(h u).mpr hreads, hkind⟩

theorem doMatch_anySeq (hnil : pattern ≠ []) (hliteral : ∀ text, pattern ≠ [.literalString text]) :
    doMatch casesensitive (.anySeq :: pattern) s = s.tails.any (doMatch casesensitive pattern) := by
  rw [doMatch]
  · exact hnil
  · exact hliteral

/-- **The search finds a way through the pattern if there is one.** -/
theorem doMatch_iff (hcase : casesensitive = true ∨ ¬ EndsInSuffix pattern) :
    doMatch casesensitive pattern s = true ↔ Reads casesensitive pattern s [] := by
  induction pattern generalizing s with
  | nil =>
    rw [doMatch, List.isEmpty_iff]
    exact Iff.rfl
  | cons e pattern ih =>
    have ih : ∀ u, doMatch casesensitive pattern u = true ↔ Reads casesensitive pattern u [] :=
      fun u => ih (hcase.imp_right fun h hpattern => h hpattern.cons)
    rw [reads_cons]
    cases e with
    | literalString text =>
      rw [doMatch, Bool.and_eq_true, startsWith_word, ih]
      constructor
      · rintro ⟨hword, h⟩
        exact ⟨_, hword, h⟩
      · rintro ⟨u, hword, h⟩
        have hu := word_rest hword
        rw [← hu]
        exact ⟨hword, h⟩
    | anyChar =>
      cases s with
      | nil => exact iff_of_false Bool.false_ne_true symbol_reads_nil
      | cons c u =>
        show doMatch casesensitive pattern u = true ↔ _
        rw [ih, Elem.reader, symbol_reads_cons, true_and]
    | commonChar =>
      cases s with
      | nil => exact iff_of_false Bool.false_ne_true symbol_reads_nil
      | cons c u =>
        show (decide (c ≠ '.') && doMatch casesensitive pattern u) = true ↔ _
        rw [Bool.and_eq_true, decide_eq_true_eq, ih, Elem.reader, symbol_reads_cons]
    | set ranges =>
      cases s with
      | nil => exact iff_of_false Bool.false_ne_true symbol_reads_nil
      | cons c u =>
        show (isInSet casesensitive c ranges && doMatch casesensitive pattern u) = true ↔ _
        rw [Bool.and_eq_true, isInSet_iff, ih, Elem.reader, symbol_reads_cons]
    | negSet ranges =>
      cases s with
      | nil => exact iff_of_false Bool.false_ne_true symbol_reads_nil
      | cons c u =>
        show (!isInSet casesensitive c ranges && doMatch casesensitive pattern u) = true ↔ _
        rw [Bool.and_eq_true, Bool.not_eq_true', ← Bool.not_eq_true, isInSet_iff, ih, Elem.reader,
          symbol_reads_cons]
    | numRange fromnum tonum =>
      rw [doMatch, Bool.and_eq_true, Bool.and_eq_true, inBounds_iff, ih]
      constructor
      · rintro ⟨⟨hhead, hbounds⟩, h⟩
        exact ⟨_, run_iff.mpr ⟨hhead, hbounds, rfl⟩, h⟩
      · rintro ⟨u, hrun, h⟩
        obtain ⟨hhead, hbounds, rfl⟩ := run_iff.mp hrun
        exact ⟨⟨hhead, hbounds⟩, h⟩
    | anySeq =>
      rw [← reads_cons]
      by_cases hnil : pattern = []
      · subst hnil
        refine ⟨fun _ => ?_, fun _ => rfl⟩
        exact reads_cons.mpr ⟨[], many_true.mpr List.nil_suffix, rfl⟩
      · by_cases hliteral : ∃ text, pattern = [.literalString text]
        · -- here the letters are compared as they are
          obtain ⟨text, rfl⟩ := hliteral
          rcases hcase with hcase | hcase
          · subst hcase
            rw [reads_suffix]
            exact List.isSuffixOf_iff_suffix
          · exact absurd ⟨text, List.suffix_rfl⟩ hcase
        · rw [doMatch_anySeq hnil fun text h => hliteral ⟨text, h⟩]
          exact any_tails_iff ih
    | commonSeq => exact any_component_iff ih

/-! ## The last two characters -/

/-- A line that is read ends in the literal that the pattern ends in. -/
theorem Reads.ends {text : List Char} (h : Reads true pattern line [])
    (hlast : pattern.getLast? = some (.literalString text)) : text <:+ line := by
  obtain ⟨init, rfl⟩ := List.getLast?_eq_some_iff.mp hlast
  obtain ⟨u, hinit, hword⟩ := reads_append.mp h
  have hliteral : Reads true [.anySeq, .literalString text] line [] :=
    reads_cons.mpr ⟨u, many_true.mpr hinit.suffix, hword⟩
  exact reads_suffix.mp hliteral

theorem endsDiffer_false (h : Reads true pattern line []) : endsDiffer pattern line = false := by
  unfold endsDiffer
  split
  · next text hlast =>
    obtain ⟨front, rfl⟩ := h.ends hlast
    rw [Bool.eq_false_iff]
    intro hdiffer
    simp only [Bool.and_eq_true, decide_eq_true_eq] at hdiffer
    obtain ⟨⟨htext, -⟩, hne⟩ := hdiffer
    refine hne ?_
    have hlength : (front ++ text).length - 2 = front.length + (text.length - 2) := by
      rw [List.length_append]
      omega
    rw [hlength, List.drop_length_add_append]
  · rfl

/-- **The shortcuts agree with the plain search**: a line is matched if the pattern reads it off. -/
theorem matches_iff (hcase : casesensitive = true ∨ ¬ EndsInSuffix pattern) (line : List Char) :
    «matches» casesensitive pattern line = true ↔ Reads casesensitive pattern line [] := by
  unfold «matches»
  split
  · next hshort =>
    rw [Bool.and_eq_true] at hshort
    obtain ⟨rfl, hdiffer⟩ := hshort
    constructor
    · intro h
      cases h
    · intro h
      rw [endsDiffer_false h] at hdiffer
      cases hdiffer
  · exact doMatch_iff hcase

/-- Behind a last `**` the letters are compared as they are, even if case does not matter. -/
example : doMatch false [.anySeq, .literalString ['A']] ['a'] = false ∧
    doMatch false [.literalString ['A']] ['a'] = true := by decide

/-! ## Substring mode -/

/-- A pattern that ends in `**` may leave anything. -/
theorem reads_anySeq_back : Reads casesensitive (pattern ++ [.anySeq]) s [] ↔
    ∃ t, Reads casesensitive pattern s t := by
  rw [reads_append]
  constructor
  · rintro ⟨u, h, -⟩
    exact ⟨u, h⟩
  · rintro ⟨u, h⟩
    exact ⟨u, h, sequence_singleton.mpr (many_true.mpr List.nil_suffix)⟩

/-- A pattern that begins with `**` may skip anything. -/
theorem reads_anySeq_front : Reads casesensitive (.anySeq :: pattern) s t ↔
    ∃ u, u <:+ s ∧ Reads casesensitive pattern u t := by
  rw [reads_cons]
  constructor
  · rintro ⟨u, hany, h⟩
    exact ⟨u, many_true.mp hany, h⟩
  · rintro ⟨u, hsuffix, h⟩
    exact ⟨u, many_true.mpr hsuffix, h⟩

/-- The pattern can be read off somewhere in the line. -/
def Finds (casesensitive : Bool) (pattern : List Elem) (line : List Char) : Prop :=
  ∃ s t, s <:+ line ∧ Reads casesensitive pattern s t

theorem finds_anySeq_front :
    Finds casesensitive (.anySeq :: pattern) line ↔ Finds casesensitive pattern line := by
  constructor
  · rintro ⟨s, t, hs, h⟩
    obtain ⟨u, hu, h⟩ := reads_anySeq_front.mp h
    exact ⟨u, t, hu.trans hs, h⟩
  · rintro ⟨s, t, hs, h⟩
    exact ⟨s, t, hs, reads_anySeq_front.mpr ⟨s, List.suffix_rfl, h⟩⟩

theorem finds_anySeq_back :
    Finds casesensitive (pattern ++ [.anySeq]) line ↔ Finds casesensitive pattern line := by
  constructor
  · rintro ⟨s, t, hs, h⟩
    obtain ⟨u, h, -⟩ := reads_append.mp h
    exact ⟨s, u, hs, h⟩
  · rintro ⟨s, t, hs, h⟩
    exact ⟨s, [], hs, reads_anySeq_back.mpr ⟨t, h⟩⟩

/-- With `**` at both ends, a line is read off if the pattern is found in it. -/
theorem reads_iff_finds (hfirst : pattern.head? = some .anySeq)
    (hlast : pattern.getLast? = some .anySeq) :
    Reads casesensitive pattern line [] ↔ Finds casesensitive pattern line := by
  constructor
  · intro h
    exact ⟨line, [], List.suffix_rfl, h⟩
  · rintro ⟨s, t, hs, h⟩
    obtain ⟨rest, rfl⟩ := List.head?_eq_some_iff.mp hfirst
    obtain ⟨init, hinit⟩ := List.getLast?_eq_some_iff.mp hlast
    have hfront : Reads casesensitive (.anySeq :: rest) line t := by
      obtain ⟨u, hu, h⟩ := reads_anySeq_front.mp h
      exact reads_anySeq_front.mpr ⟨u, hu.trans hs, h⟩
    rw [hinit] at hfront ⊢
    obtain ⟨u, h, -⟩ := reads_append.mp hfront
    exact reads_anySeq_back.mpr ⟨u, h⟩

/-- `**` behind the pattern, unless already there. -/
def widenBack (pattern : List Elem) : List Elem :=
  if pattern.getLast? = some .anySeq then pattern else pattern ++ [.anySeq]

/-- `**` in front of the pattern, unless already there. -/
def widenFront (pattern : List Elem) : List Elem :=
  if pattern.head? = some .anySeq then pattern else .anySeq :: pattern

theorem widen_eq (pattern : List Elem) : widen pattern = widenFront (widenBack pattern) := rfl

theorem widen_head? (pattern : List Elem) : (widen pattern).head? = some .anySeq := by
  rw [widen_eq, widenFront]
  split
  · next h => exact h
  · rfl

theorem widen_getLast? (pattern : List Elem) : (widen pattern).getLast? = some .anySeq := by
  have hback : (widenBack pattern).getLast? = some .anySeq := by
    rw [widenBack]
    split
    · next h => exact h
    · exact List.getLast?_concat
  rw [widen_eq, widenFront]
  split
  · exact hback
  · rw [List.getLast?_cons, hback]
    rfl

theorem finds_widen :
    Finds casesensitive (widen pattern) line ↔ Finds casesensitive pattern line := by
  have hback : Finds casesensitive (widenBack pattern) line ↔ Finds casesensitive pattern line := by
    rw [widenBack]
    split
    · exact Iff.rfl
    · exact finds_anySeq_back
  rw [widen_eq, widenFront]
  split
  · exact hback
  · exact finds_anySeq_front.trans hback

/-- **In substring mode a line is matched if the pattern can be read off somewhere in it.** -/
theorem matches_widen (pattern : List Elem) (line : List Char) :
    «matches» casesensitive (widen pattern) line = true ↔ Finds casesensitive pattern line := by
  have hends : ¬ EndsInSuffix (widen pattern) := by
    rintro ⟨text, front, hsuffix⟩
    have hlast := widen_getLast? pattern
    rw [← hsuffix, List.getLast?_append] at hlast
    cases hlast
  rw [matches_iff (Or.inr hends), reads_iff_finds (widen_head? pattern) (widen_getLast? pattern),
    finds_widen]

/-- Substring mode widens the pattern. -/
theorem setPattern_substring {text : List Char} {dottedpath : Bool} :
    setPattern text dottedpath false casesensitive = .ok pattern ↔
      ∃ pattern', setPattern text dottedpath true casesensitive = .ok pattern' ∧
        widen pattern' = pattern := by
  simp only [setPattern, bind_eq_ok, pure_eq_ok, if_true, Bool.false_eq_true, if_false]
  constructor
  · rintro ⟨pattern', h, rfl⟩
    exact ⟨pattern', ⟨pattern', h, rfl⟩, rfl⟩
  · rintro ⟨_, ⟨pattern', h, rfl⟩, rfl⟩
    exact ⟨pattern', h, rfl⟩

/-- **What a pattern matches**: with the full string the lines that it reads off, up to the last
shortcut, and else those in which it can be read off somewhere. -/
theorem pattern_language {text : List Char} {dottedpath : Bool}
    (h : setPattern text dottedpath true casesensitive = .ok pattern) :
    ((casesensitive = true ∨ ¬ EndsInSuffix pattern) → ∀ line,
      «matches» casesensitive pattern line = true ↔ Reads casesensitive pattern line []) ∧
    ∃ pattern', setPattern text dottedpath false casesensitive = .ok pattern' ∧
      ∀ line, «matches» casesensitive pattern' line = true ↔ Finds casesensitive pattern line :=
  ⟨matches_iff, widen pattern, setPattern_substring.mpr ⟨pattern, h, rfl⟩, matches_widen pattern⟩

/-- The applications of all modules. -/
def applicationPattern : List Elem :=
  [.anySeq, .literalString ".app[".toList, .commonSeq, .literalString "]".toList]

theorem setPattern_application :
    setPattern "**.app[*]".toList true true true = .ok applicationPattern := by decide +kernel

theorem pattern_language_application :
    Reads true applicationPattern "net.car[1].app[3]".toList [] ∧
      ¬ Reads true applicationPattern "net.car[1].app[3].x".toList [] ∧
      ∃ pattern', setPattern "**.app[*]".toList true false true = .ok pattern' ∧
        ∀ line, «matches» true pattern' line = true ↔ Finds true applicationPattern line := by
  obtain ⟨hfull, hpart⟩ := pattern_language setPattern_application
  have hmatch := hfull (Or.inl rfl)
  refine ⟨(hmatch _).mp (by decide +kernel), fun h => ?_, hpart⟩
  exact absurd ((hmatch _).mpr h) (by decide +kernel)

end CooperativeTsn.PatternMatcher
