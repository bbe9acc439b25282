import CooperativeTsn.Flow.PatternLanguage
import Mathlib.Data.List.Chain

/-!
# Patterns as texts

Every well-formed pattern has a text that is read back as the pattern: literals with each character
escaped, sets as ranges, numbers in braces. What `setPattern` makes of any text is well formed, but
for the stars that it adds in substring mode.

* `setPattern_write` — a written pattern is read back
* `setPattern_formed` — what is read is well formed
* `matches_plain` — a text without wildcards matches itself only
-/

namespace CooperativeTsn.PatternMatcher

open Infra.Readers Infra.Runs

variable {dottedpath casesensitive : Bool} {pattern : List Elem} {text rest s t : List Char}

/-! ## Upper case -/

/-- Upper case ends in a letter, or leaves the character as it is. -/
theorem toUpper_cases (c : Char) : c.toUpper = c ∨ c.toUpper.isUpper = true := by
  unfold Char.toUpper
  split
  · next h =>
    have hlow : 97 ≤ c.val.toNat := UInt32.le_iff_toNat_le.mp h.1
    have hhigh : c.val.toNat ≤ 122 := UInt32.le_iff_toNat_le.mp h.2
    have hval : (c.val + ('A'.val - 'a'.val)).toNat = c.val.toNat - 32 := by
      have hshift : ('A'.val - 'a'.val).toNat = 2 ^ 32 - 32 := by decide
      rw [UInt32.toNat_add, hshift]
      omega
    have hupper : 65 ≤ c.val.toNat - 32 ∧ c.val.toNat - 32 ≤ 90 := by omega
    rw [← hval] at hupper
    exact Or.inr (decide_eq_true ⟨UInt32.le_iff_toNat_le.mpr hupper.1,
      UInt32.le_iff_toNat_le.mpr hupper.2⟩)
  · exact Or.inl rfl

theorem toUpper_of_isUpper {c : Char} (h : c.isUpper = true) : c.toUpper = c := by
  refine dif_neg fun hlower => ?_
  have hle : 'a'.val ≤ 'Z'.val := UInt32.le_trans hlower.1 (of_decide_eq_true h).2
  exact absurd hle (by decide)

theorem toUpper_toUpper (c : Char) : c.toUpper.toUpper = c.toUpper := by
  rcases toUpper_cases c with h | h
  · rw [h]
    exact h
  · exact toUpper_of_isUpper h

/-- What is no capital letter is the upper case of itself only. -/
theorem eq_of_toUpper {c d : Char} (h : c.toUpper = d) (hd : d.isUpper = false) : c = d := by
  rcases toUpper_cases c with hc | hc
  · rw [← hc, h]
  · rw [h, hd] at hc
    cases hc

/-! ## Well-formed patterns -/

/--
The ranges of a set in braces. A closing brace is its first character or none at all. Where that
brace is a range of its own, no dash follows, which would go on with it, unless it is the last one.
-/
def Braced : List (Char × Char) → Prop
  | [] => False
  | range :: ranges =>
    (range.2 = '}' → range.1 = '}' ∧ ∀ next ∈ ranges.head?, next.1 = '-' → ranges = [('-', '-')]) ∧
      ∀ range ∈ ranges, range.1 ≠ '}' ∧ range.2 ≠ '}'

/-- The ranges are in upper case unless case matters. -/
structure SetFormed (casesensitive : Bool) (ranges : List (Char × Char)) : Prop where
  braced : Braced ranges
  upper : casesensitive = false → ∀ range ∈ ranges, (range.1.toUpper, range.2.toUpper) = range

/-- The bounds that are there are numbers of a `long`. -/
def Bounded (b : Option Int) : Prop := ∀ n ∈ b, 0 ≤ n ∧ n ≤ longMax

/--
What an element of a pattern looks like. Single stars and question marks depend on the mode. A set
that is no negated one does not begin with `^`.
-/
def Elem.Formed (dottedpath casesensitive : Bool) : Elem → Prop
  | .literalString text => text ≠ []
  | .anyChar => dottedpath = false
  | .commonChar => dottedpath = true
  | .set ranges => SetFormed casesensitive ranges ∧ ∀ range ∈ ranges.head?, range.1 ≠ '^'
  | .negSet ranges => SetFormed casesensitive ranges
  | .numRange fromnum tonum => Bounded fromnum ∧ Bounded tonum
  | .anySeq => True
  | .commonSeq => dottedpath = true

/-- The elements that may follow: a literal does not end before another one, nor a `*` before a
star. -/
def Elem.Before : Elem → Elem → Prop
  | .literalString _, .literalString _ => False
  | .commonSeq, .anySeq => False
  | .commonSeq, .commonSeq => False
  | _, _ => True

structure Formed (dottedpath casesensitive : Bool) (pattern : List Elem) : Prop where
  elems : ∀ e ∈ pattern, e.Formed dottedpath casesensitive
  chain : pattern.IsChain Elem.Before

/-! ## Writing a pattern -/

/-- The special meaning of a character is taken away. -/
def escape (c : Char) : List Char := ['\\', c]

def writeRange (range : Char × Char) : List Char := [range.1, '-', range.2]

/-- A closing brace is written without a dash, and so is a dash behind it. -/
def writeRanges : List (Char × Char) → List Char
  | [] => []
  | range :: ranges =>
    if range.2 = '}' then
      '}' :: (if ranges = [('-', '-')] then ['-'] else ranges.flatMap writeRange)
    else writeRange range ++ ranges.flatMap writeRange

/-- A bound that is unset is left out. -/
def writeBound : Option Int → List Char
  | none => []
  | some n => Nat.toDigits 10 n.toNat

def Elem.write : Elem → List Char
  | .literalString text => text.flatMap escape
  | .anyChar => ['?']
  | .commonChar => ['?']
  | .set ranges => '{' :: (writeRanges ranges ++ ['}'])
  | .negSet ranges => '{' :: '^' :: (writeRanges ranges ++ ['}'])
  | .numRange fromnum tonum =>
    '{' :: (writeBound fromnum ++ '.' :: '.' :: (writeBound tonum ++ ['}']))
  | .anySeq => ['*', '*']
  | .commonSeq => ['*']

def writePattern (pattern : List Elem) : List Char := pattern.flatMap Elem.write

/-! ## Reading a written element -/

theorem isDigit_ge {c : Char} (h : c.isDigit = true) : '0'.toNat ≤ c.toNat := by
  simp only [Char.isDigit, Bool.and_eq_true, decide_eq_true_eq] at h
  exact h.1

/-- Digits spell a natural number. -/
theorem number_eq {digits : List Char} (h : ∀ c ∈ digits, c.isDigit = true) :
    number digits = min (Nat.ofDigitChars 10 digits 0 : Int) longMax := by
  have hfold : ∀ (digits : List Char) (k : Nat), (∀ c ∈ digits, c.isDigit = true) →
      digits.foldl (fun n c => 10 * n + ((c.toNat : Int) - '0'.toNat)) (k : Int) =
        (Nat.ofDigitChars 10 digits k : Int) := by
    intro digits
    induction digits with
    | nil =>
      intro k _
      rfl
    | cons c digits ih =>
      intro k h
      have hc : '0'.toNat ≤ c.toNat := isDigit_ge (h c List.mem_cons_self)
      rw [List.foldl_cons, Nat.ofDigitChars_cons,
        ← ih _ fun d hd => h d (List.mem_cons_of_mem _ hd)]
      congr 1
      omega
  exact congrArg (min · longMax) (hfold digits 0 h)

theorem number_toDigits {n : Nat} (h : (n : Int) ≤ longMax) : number (Nat.toDigits 10 n) = n := by
  rw [number_eq fun c hc => Nat.isDigit_of_mem_toDigits (by decide) (by decide) hc,
    Nat.ofDigitChars_ten_toDigits, Int.min_eq_left h]

theorem writeBound_isDigit (b : Option Int) : ∀ c ∈ writeBound b, c.isDigit = true := by
  intro c hc
  cases b with
  | none => cases hc
  | some n => exact Nat.isDigit_of_mem_toDigits (by decide) (by decide) hc

theorem bound_writeBound {b : Option Int} (h : Bounded b) : bound (writeBound b) = b := by
  cases b with
  | none => rfl
  | some n =>
    obtain ⟨hnonneg, hle⟩ := h n rfl
    have hn : (n.toNat : Int) = n := Int.toNat_of_nonneg hnonneg
    rw [writeBound, bound, if_neg Nat.toDigits_ne_nil, number_toDigits (hn.trans_le hle), hn]

/-- What comes behind a bracket or brace is no number and no dot. -/
theorem parseNumRange_none {closingchar c : Char}
    (h : ∀ d ∈ s.head?, d.isDigit = false ∧ d ≠ '.') :
    parseNumRange closingchar (c :: s) = none := by
  cases s with
  | nil => rfl
  | cons d s =>
    obtain ⟨hdigit, hdot⟩ := h d rfl
    rw [parseNumRange, List.dropWhile_cons_of_neg (by simp [hdigit])]
    split
    · next heq =>
      cases heq
      exact absurd rfl hdot
    · rfl

/-- The digits of a bound end where they end. -/
theorem writeBound_span (b : Option Int) {c : Char} (hc : c.isDigit = false) (rest : List Char) :
    (writeBound b ++ c :: rest).takeWhile Char.isDigit = writeBound b ∧
      (writeBound b ++ c :: rest).dropWhile Char.isDigit = c :: rest := by
  have hdigits := writeBound_isDigit b
  rw [List.takeWhile_append_of_pos hdigits, List.dropWhile_append_of_pos hdigits,
    List.takeWhile_cons_of_neg (by simp [hc]), List.dropWhile_cons_of_neg (by simp [hc]),
    List.append_nil]
  exact ⟨rfl, rfl⟩

theorem parseNumRange_write {fromnum tonum : Option Int} (hfrom : Bounded fromnum)
    (hto : Bounded tonum) (rest : List Char) :
    parseNumRange '}'
        ('{' :: (writeBound fromnum ++ '.' :: '.' :: (writeBound tonum ++ '}' :: rest))) =
      some (fromnum, tonum, '}' :: rest) := by
  obtain ⟨htake, hdrop⟩ := writeBound_span fromnum (c := '.') rfl
    ('.' :: (writeBound tonum ++ '}' :: rest))
  obtain ⟨htake', hdrop'⟩ := writeBound_span tonum (c := '}') rfl rest
  simp only [parseNumRange, htake, hdrop, htake', hdrop', bound_writeBound hfrom,
    bound_writeBound hto, if_true]

/-- A range in a set, unless it begins with the closing brace. -/
theorem parseRanges_range {first : Bool} {range : Char × Char} {ranges : List (Char × Char)}
    (hopen : ¬ (range.1 = '}' ∧ (!first) = true)) (hdash : range.2 ≠ '}')
    (h : parseRanges false s = .ok (ranges, rest)) :
    parseRanges first (writeRange range ++ s) = .ok (range :: ranges, rest) := by
  show parseRanges first (range.1 :: '-' :: range.2 :: s) = _
  rw [parseRanges, if_neg hopen]
  dsimp only
  rw [if_pos hdash, h]
  rfl

theorem parseRanges_close (rest : List Char) :
    parseRanges false ('}' :: rest) = .ok ([], rest) := by
  rw [parseRanges.eq_def]
  rfl

/-- Any other character that no dash follows is a range of its own. -/
theorem parseRanges_single {first : Bool} {c : Char} {ranges : List (Char × Char)}
    (hopen : ¬ (c = '}' ∧ (!first) = true)) (hdash : s.head? ≠ some '-')
    (h : parseRanges false s = .ok (ranges, rest)) :
    parseRanges first (c :: s) = .ok ((c, c) :: ranges, rest) := by
  rw [parseRanges.eq_def]
  dsimp only
  rw [if_neg hopen]
  split
  · exact absurd rfl hdash
  · rw [h]
    rfl

/-- So is a dash that comes last. -/
theorem parseRanges_dash (rest : List Char) :
    parseRanges false ('-' :: '}' :: rest) = .ok ([('-', '-')], rest) :=
  parseRanges_single (by decide) (by simp) (parseRanges_close rest)

theorem parseRanges_inner (rest : List Char) : ∀ {ranges : List (Char × Char)},
    (∀ range ∈ ranges, range.1 ≠ '}' ∧ range.2 ≠ '}') →
    parseRanges false (ranges.flatMap writeRange ++ '}' :: rest) = .ok (ranges, rest)
  | [], _ => parseRanges_close rest
  | range :: ranges, h => by
    obtain ⟨hbrace, hdash⟩ := h range List.mem_cons_self
    have ih := parseRanges_inner rest fun r hr => h r (List.mem_cons_of_mem _ hr)
    rw [List.flatMap_cons, List.append_assoc]
    exact parseRanges_range (fun hopen => hbrace hopen.1) hdash ih

/-- **The ranges of a set are read back.** -/
theorem parseRanges_write {ranges : List (Char × Char)} (h : Braced ranges) (rest : List Char) :
    parseRanges true (writeRanges ranges ++ '}' :: rest) = .ok (ranges, rest) := by
  cases ranges with
  | nil => exact h.elim
  | cons range ranges =>
    obtain ⟨hfirst, hinner⟩ := h
    have hread := parseRanges_inner rest hinner
    rw [writeRanges]
    split
    · next hbrace =>
      obtain ⟨hopen, hdash⟩ := hfirst hbrace
      have hrange : range = ('}', '}') := Prod.ext hopen hbrace
      subst hrange
      split
      · next hlast =>
        subst hlast
        show parseRanges true ('}' :: '-' :: '}' :: rest) = _
        rw [parseRanges, if_neg (by decide)]
        dsimp only
        rw [if_neg (by decide), parseRanges_dash]
        rfl
      · next hlast =>
        refine parseRanges_single (by decide) (fun hhead => ?_) hread
        cases ranges with
        | nil => cases hhead
        | cons next ranges => exact hlast (hdash next rfl (Option.some_inj.mp hhead))
    · next hbrace =>
      rw [List.append_assoc]
      exact parseRanges_range (by simp) hbrace hread

/-- A set begins with its first character. -/
theorem writeRanges_head {range : Char × Char} {ranges : List (Char × Char)}
    (h : Braced (range :: ranges)) : ∃ s, writeRanges (range :: ranges) = range.1 :: s := by
  rw [writeRanges]
  split
  · next hbrace => exact ⟨_, by rw [(h.1 hbrace).1]⟩
  · exact ⟨_, rfl⟩

/-- A wildcard or a set follows, or nothing. -/
def EndsLiteral (rest : List Char) : Prop := ∀ c ∈ rest.head?, c = '?' ∨ c = '{' ∨ c = '*'

theorem parseLiteralString_end (h : EndsLiteral rest) :
    parseLiteralString rest = .ok ([], rest) := by
  cases rest with
  | nil => rw [parseLiteralString.eq_def]; rfl
  | cons c rest =>
    rw [parseLiteralString.eq_def]
    exact if_pos (h c rfl)

/-- Behind an escaped character the text goes on with a backslash, or the literal ends. -/
theorem escape_head (h : EndsLiteral rest) (text : List Char) :
    ∀ d ∈ (text.flatMap escape ++ rest).head?, d.isDigit = false ∧ d ≠ '.' := by
  intro d hd
  cases text with
  | nil =>
    rcases h d hd with rfl | rfl | rfl
    · exact ⟨rfl, by decide⟩
    · exact ⟨rfl, by decide⟩
    · exact ⟨rfl, by decide⟩
  | cons c text =>
    cases hd
    exact ⟨rfl, by decide⟩

theorem parseLiteralString_write (h : EndsLiteral rest) (text : List Char) :
    parseLiteralString (text.flatMap escape ++ rest) = .ok (text, rest) := by
  induction text with
  | nil => exact parseLiteralString_end h
  | cons c text ih =>
    show parseLiteralString ('\\' :: c :: (text.flatMap escape ++ rest)) = _
    have hrange :
        ¬ (c = '[' ∧ (parseNumRange ']' (c :: (text.flatMap escape ++ rest))).isSome) := by
      rintro ⟨-, hsome⟩
      rw [parseNumRange_none (escape_head h text)] at hsome
      cases hsome
    rw [parseLiteralString.eq_def]
    dsimp only
    rw [if_neg (by decide), if_pos rfl, if_neg hrange, ih]
    rfl

/-- What is written behind an element does not go on with it. -/
def Stops : Elem → List Char → Prop
  | .literalString _, rest => EndsLiteral rest
  | .commonSeq, rest => rest.head? ≠ some '*'
  | _, _ => True

theorem map_upper {ranges : List (Char × Char)} (h : SetFormed casesensitive ranges) :
    ranges.map (fun range => if casesensitive then range else (range.1.toUpper, range.2.toUpper)) =
      ranges := by
  cases casesensitive with
  | true => exact List.map_id ranges
  | false =>
    have hfold : ∀ range ∈ ranges, (range.1.toUpper, range.2.toUpper) = id range := h.upper rfl
    exact (List.map_congr_left hfold).trans (List.map_id ranges)

theorem Braced.ne_nil {ranges : List (Char × Char)} (h : Braced ranges) : ranges ≠ [] := by
  rintro rfl
  exact h

/-- A set is no number range: behind its first character comes a dash, or that one is a brace. -/
theorem parseNumRange_set {ranges : List (Char × Char)} (h : Braced ranges) (tail : List Char) :
    parseNumRange '}' ('{' :: (writeRanges ranges ++ tail)) = none := by
  obtain ⟨range, ranges, rfl⟩ := List.exists_cons_of_ne_nil h.ne_nil
  rw [writeRanges]
  split
  · exact parseNumRange_none fun d hd => by
      cases hd
      exact ⟨rfl, by decide⟩
  · show parseNumRange '}'
      ('{' :: range.1 :: '-' :: range.2 :: (ranges.flatMap writeRange ++ tail)) = none
    rw [parseNumRange]
    by_cases hdigit : range.1.isDigit = true
    · rw [List.dropWhile_cons_of_pos hdigit]
      rfl
    · rw [List.dropWhile_cons_of_neg hdigit]
      split
      · next heq => cases (List.cons.inj heq).2
      · rfl

/-- **A written element is read back.** -/
theorem parseElem_write {e : Elem} (last : Option Elem)
    (hformed : e.Formed dottedpath casesensitive) (hstops : Stops e rest) :
    parseElem dottedpath casesensitive last (e.write ++ rest) = .ok (e, rest) := by
  cases e with
  | literalString text =>
    have hliteral := parseLiteralString_write hstops text
    obtain ⟨c, text, rfl⟩ := List.exists_cons_of_ne_nil hformed
    show parseElem dottedpath casesensitive last ('\\' :: c :: (text.flatMap escape ++ rest)) = _
    have hparse : parseLiteralString ('\\' :: c :: (text.flatMap escape ++ rest)) =
        .ok (c :: text, rest) := hliteral
    simp only [parseElem, hparse]
    rfl
  | anyChar =>
    have hmode : dottedpath = false := hformed
    subst hmode
    rfl
  | commonChar =>
    have hmode : dottedpath = true := hformed
    subst hmode
    rfl
  | set ranges =>
    obtain ⟨hset, hhead⟩ := hformed
    have hnone := parseNumRange_set hset.braced ('}' :: rest)
    have hcaret : ∀ u, writeRanges ranges ++ '}' :: rest ≠ '^' :: u := by
      obtain ⟨range, ranges, rfl⟩ := List.exists_cons_of_ne_nil hset.braced.ne_nil
      obtain ⟨s, hs⟩ := writeRanges_head hset.braced
      rintro u heq
      rw [hs] at heq
      exact hhead range rfl (List.cons.inj heq).1
    have hparse : parseSet casesensitive ('{' :: (writeRanges ranges ++ '}' :: rest)) =
        .ok (.set ranges, rest) := by
      unfold parseSet
      rw [List.drop_succ_cons, List.drop_zero]
      dsimp only
      split
      · next heq => exact absurd heq (hcaret _)
      · rw [parseRanges_write hset.braced]
        show Except.ok (Elem.set (ranges.map _), rest) = _
        rw [map_upper hset]
    simp only [Elem.write, List.cons_append, List.append_assoc, List.nil_append, parseElem, hnone,
      hparse]
  | negSet ranges =>
    have hset : SetFormed casesensitive ranges := hformed
    have hnone : parseNumRange '}' ('{' :: '^' :: (writeRanges ranges ++ '}' :: rest)) = none :=
      parseNumRange_none fun d hd => by
        cases hd
        exact ⟨rfl, by decide⟩
    have hparse : parseSet casesensitive ('{' :: '^' :: (writeRanges ranges ++ '}' :: rest)) =
        .ok (.negSet ranges, rest) := by
      simp only [parseSet, List.drop_succ_cons, List.drop_zero, parseRanges_write hset.braced]
      show Except.ok (Elem.negSet (ranges.map _), rest) = _
      rw [map_upper hset]
    simp only [Elem.write, List.cons_append, List.append_assoc, List.nil_append, parseElem, hnone,
      hparse]
  | numRange fromnum tonum =>
    have hrange := parseNumRange_write hformed.1 hformed.2 rest
    simp only [Elem.write, List.cons_append, List.append_assoc, List.nil_append, parseElem, hrange]
    rfl
  | anySeq => rfl
  | commonSeq =>
    have hmode : dottedpath = true := hformed
    subst hmode
    show parseElem true casesensitive last ('*' :: rest) = _
    rw [parseElem]
    · rfl
    · rintro s' heq
      cases heq
      exact hstops rfl

/-! ## Round trip -/

theorem Formed.tail {e : Elem} (h : Formed dottedpath casesensitive (e :: pattern)) :
    Formed dottedpath casesensitive pattern where
  elems e' he' := h.elems e' (List.mem_cons_of_mem _ he')
  chain := List.isChain_of_isChain_cons h.chain

theorem Elem.write_ne_nil {e : Elem} (h : e.Formed dottedpath casesensitive) : e.write ≠ [] := by
  cases e with
  | literalString text =>
    obtain ⟨c, text, rfl⟩ := List.exists_cons_of_ne_nil h
    exact List.cons_ne_nil _ _
  | _ => exact List.cons_ne_nil _ _

/-- No element of a well-formed pattern goes on with the next one. -/
theorem Formed.stops {e : Elem} (h : Formed dottedpath casesensitive (e :: pattern)) :
    Stops e (writePattern pattern) := by
  cases pattern with
  | nil =>
    cases e with
    | literalString text =>
      intro c hc
      cases hc
    | commonSeq =>
      intro hstar
      cases hstar
    | _ => trivial
  | cons e' pattern =>
    have hbefore : e.Before e' := (List.isChain_cons_cons.mp h.chain).1
    have hformed : e'.Formed dottedpath casesensitive := h.elems e' (by simp)
    cases e with
    | literalString text =>
      intro c hc
      cases e' with
      | literalString text' => exact absurd hbefore id
      | _ =>
        cases hc
        decide
    | commonSeq =>
      intro hstar
      cases e' with
      | anySeq => exact hbefore
      | commonSeq => exact hbefore
      | literalString text =>
        obtain ⟨c, text, rfl⟩ := List.exists_cons_of_ne_nil hformed
        cases hstar
      | _ => cases hstar
    | _ => trivial

theorem tokenize_write (hformed : Formed dottedpath casesensitive pattern) {fuel : Nat}
    {last : Option Elem} (hfuel : (writePattern pattern).length ≤ fuel) :
    tokenize dottedpath casesensitive fuel last (writePattern pattern) = .ok pattern := by
  induction pattern generalizing fuel last with
  | nil => cases fuel <;> rfl
  | cons e pattern ih =>
    have he := hformed.elems e List.mem_cons_self
    have hread := parseElem_write last he hformed.stops
    have hlength : 0 < e.write.length := List.length_pos_iff.mpr (Elem.write_ne_nil he)
    have hsplit : writePattern (e :: pattern) = e.write ++ writePattern pattern := rfl
    rw [hsplit, List.length_append] at hfuel
    obtain ⟨fuel, rfl⟩ : ∃ n, fuel = n + 1 := ⟨fuel - 1, by omega⟩
    have hrest : tokenize dottedpath casesensitive fuel (some e) (writePattern pattern) =
        .ok pattern :=
      ih hformed.tail (by omega)
    rw [hsplit, tokenize, hread]
    · simp only [bind, Except.bind, hrest]
      rfl
    · exact List.append_ne_nil_of_left_ne_nil (Elem.write_ne_nil he) _

/-- **A written pattern is read back**, with stars at its ends in substring mode. -/
theorem setPattern_write (hformed : Formed dottedpath casesensitive pattern) (fullstring : Bool) :
    setPattern (writePattern pattern) dottedpath fullstring casesensitive =
      .ok (if fullstring then pattern else widen pattern) := by
  rw [setPattern, tokenize_write hformed (Nat.le_refl _)]
  rfl

/-- The ports of the cars from the first one on, up to a brace or a dash. -/
def portPattern : List Elem :=
  [.anySeq, .literalString "car[".toList, .numRange (some 1) none, .literalString "].eth".toList,
    .set [('0', '9'), ('_', '_')], .negSet [('}', '}'), ('-', '-')], .commonSeq]

theorem setPattern_write_port :
    setPattern (writePattern portPattern) true false true = .ok (widen portPattern) := by
  have hformed : Formed true true portPattern :=
    { elems := by
        have hset : SetFormed true [('0', '9'), ('_', '_')] := ⟨by simp [Braced], by simp⟩
        have hnegset : SetFormed true [('}', '}'), ('-', '-')] := ⟨by simp [Braced], by simp⟩
        simp [portPattern, Elem.Formed, hset, hnegset, Bounded, longMax]
      chain := by simp [portPattern, Elem.Before] }
  exact setPattern_write hformed false

/-! ## What is read is well formed -/

theorem bound_bounded (s : List Char) : Bounded (bound (s.takeWhile Char.isDigit)) := by
  intro n hn
  unfold bound at hn
  split at hn
  · cases hn
  · cases hn
    rw [number_eq fun c hc => List.mem_takeWhile_imp hc]
    exact ⟨Int.le_min.mpr ⟨Int.natCast_nonneg _, by decide⟩, Int.min_le_right _ _⟩

/-- A number range has its dots, and its bounds are numbers. -/
theorem parseNumRange_some {closingchar : Char} {fromnum tonum : Option Int}
    (h : parseNumRange closingchar s = some (fromnum, tonum, rest)) :
    ['.', '.'] <:+: s ∧ Bounded fromnum ∧ Bounded tonum := by
  cases s with
  | nil => cases h
  | cons c s =>
    rw [parseNumRange] at h
    split at h
    · next t hdots =>
      split at h
      · next c' rest' _ =>
        split at h
        · obtain ⟨rfl, rfl, -⟩ : _ ∧ _ ∧ _ := by simpa using h
          refine ⟨?_, bound_bounded s, bound_bounded t⟩
          have hsuffix : '.' :: '.' :: t <:+ s := hdots ▸ List.dropWhile_suffix Char.isDigit
          exact ((List.prefix_append ['.', '.'] t).isInfix.trans hsuffix.isInfix).trans
            (List.suffix_cons c s).isInfix
        · cases h
      · cases h
    · cases h

/--
What is read of a set: its closing brace, or one range, which does not begin with the closing brace
unless it is the first one, nor end in it unless it is that character alone. A dash behind such a
range is the last one.
-/
theorem parseRanges_ok {first : Bool} {ranges : List (Char × Char)}
    (h : parseRanges first s = .ok (ranges, rest)) :
    (first = false ∧ ranges = []) ∨ ∃ range ranges' t, ranges = range :: ranges' ∧
      parseRanges false t = .ok (ranges', rest) ∧ s.head? = some range.1 ∧
      (range.1 = '}' → first = true) ∧ (range.2 = '}' → range.1 = '}' ∧
        (t.head? = some '-' → ranges' = [('-', '-')])) := by
  have hbrace : ∀ {first : Bool} {c : Char}, ¬ (c = '}' ∧ (!first) = true) → c = '}' →
      first = true := by
    intro first c hopen hc
    by_contra hfirst
    exact hopen ⟨hc, by simpa using hfirst⟩
  fun_induction parseRanges first s with
  | case1 => cases h
  | case2 first c s hopen =>
    cases h
    exact Or.inl ⟨by simpa using hopen.2, rfl⟩
  | case3 first c hopen d t hdash =>
    simp only [bind_eq_ok, pure_eq_ok] at h
    obtain ⟨r, hr, h⟩ := h
    cases h
    exact Or.inr ⟨_, _, t, rfl, hr, rfl, hbrace hopen, fun hd => absurd hd hdash⟩
  | case4 first c hopen d t hdash =>
    -- the dash is the last one
    obtain rfl : d = '}' := not_not.mp hdash
    simp only [bind_eq_ok, pure_eq_ok] at h
    obtain ⟨r, hr, h⟩ := h
    cases h
    refine Or.inr ⟨_, _, _, rfl, hr, rfl, hbrace hopen, fun hc => ⟨hc, fun _ => ?_⟩⟩
    rw [parseRanges_dash] at hr
    cases hr
    rfl
  | case5 first c hopen s hdash =>
    simp only [bind_eq_ok, pure_eq_ok] at h
    obtain ⟨r, hr, h⟩ := h
    cases h
    refine Or.inr ⟨_, _, _, rfl, hr, rfl, hbrace hopen, fun hc => ⟨hc, fun hhead => ?_⟩⟩
    obtain ⟨u, rfl⟩ := List.head?_eq_some_iff.mp hhead
    cases u with
    | nil =>
      rw [parseRanges.eq_def] at hr
      cases hr
    | cons d t => exact absurd rfl (hdash d t)

/-- A set begins with the first character of its text. -/
theorem parseRanges_head {first : Bool} {range : Char × Char} {ranges : List (Char × Char)}
    (h : parseRanges first s = .ok (range :: ranges, rest)) : s.head? = some range.1 := by
  rcases parseRanges_ok h with ⟨-, hnil⟩ | ⟨_, _, _, heq, -, hhead, -⟩
  · cases hnil
  · cases heq
    exact hhead

/-- No range behind the first one has a closing brace. -/
theorem parseRanges_no_brace : ∀ {ranges : List (Char × Char)} {s : List Char},
    parseRanges false s = .ok (ranges, rest) → ∀ range ∈ ranges, range.1 ≠ '}' ∧ range.2 ≠ '}'
  | [], _, _ => List.forall_mem_nil _
  | range :: ranges, s, h => by
    rcases parseRanges_ok h with ⟨-, hnil⟩ | ⟨_, _, t, heq, hrest, -, hopen, hclose⟩
    · cases hnil
    · cases heq
      have hne : range.1 ≠ '}' := fun hbrace => Bool.false_ne_true (hopen hbrace)
      exact List.forall_mem_cons.mpr ⟨⟨hne, fun hbrace => hne (hclose hbrace).1⟩,
        parseRanges_no_brace hrest⟩

/-- **What is read as a set can be written in braces.** -/
theorem parseRanges_braced {ranges : List (Char × Char)}
    (h : parseRanges true s = .ok (ranges, rest)) : Braced ranges := by
  rcases parseRanges_ok h with ⟨hfirst, -⟩ | ⟨range, ranges, t, rfl, hrest, -, -, hclose⟩
  · cases hfirst
  · refine ⟨fun hbrace => ⟨(hclose hbrace).1, fun next hnext hdash => ?_⟩,
      parseRanges_no_brace hrest⟩
    obtain ⟨ranges, rfl⟩ := List.head?_eq_some_iff.mp hnext
    exact (hclose hbrace).2 (hdash ▸ parseRanges_head hrest)

/-- Upper case leaves the braces of a set where they are. -/
theorem Braced.upper {ranges : List (Char × Char)} (h : Braced ranges) :
    Braced (ranges.map fun range => (range.1.toUpper, range.2.toUpper)) := by
  cases ranges with
  | nil => exact h
  | cons range ranges =>
    obtain ⟨hfirst, hinner⟩ := h
    refine ⟨fun hbrace => ?_, ?_⟩
    · obtain ⟨hopen, hdash⟩ := hfirst (eq_of_toUpper hbrace rfl)
      refine ⟨?_, fun next hnext hnextdash => ?_⟩
      · show range.1.toUpper = '}'
        rw [hopen]
        rfl
      · cases ranges with
        | nil => cases hnext
        | cons range' ranges =>
          cases hnext
          rw [hdash range' rfl (eq_of_toUpper hnextdash rfl)]
          rfl
    · intro range' hrange'
      obtain ⟨range'', hmem, rfl⟩ := List.mem_map.mp hrange'
      obtain ⟨hopen, hclose⟩ := hinner range'' hmem
      exact ⟨fun hbrace => hopen (eq_of_toUpper hbrace rfl),
        fun hbrace => hclose (eq_of_toUpper hbrace rfl)⟩

theorem Braced.fold {ranges : List (Char × Char)} (h : Braced ranges) (casesensitive : Bool) :
    SetFormed casesensitive
      (ranges.map fun range =>
        if casesensitive then range else (range.1.toUpper, range.2.toUpper)) := by
  cases casesensitive with
  | true =>
    refine ⟨?_, fun hcase => by cases hcase⟩
    exact (List.map_id ranges).symm ▸ h
  | false =>
    refine ⟨h.upper, fun _ range hrange => ?_⟩
    obtain ⟨range', -, rfl⟩ := List.mem_map.mp hrange
    exact Prod.ext (toUpper_toUpper _) (toUpper_toUpper _)

/-- What an element may leave of a text: a literal stops before a wildcard or a set, or behind the
bracket of a number range. -/
def Leaves : Elem → List Char → Prop
  | .literalString _, rest => ∀ c ∈ rest.head?,
    c = '?' ∨ c = '{' ∨ c = '*' ∨ c = '[' ∧ (parseNumRange ']' rest).isSome = true
  | .commonSeq, rest => rest.head? ≠ some '*'
  | _, _ => True

theorem parseLiteralString_leaves (h : parseLiteralString s = .ok (text, rest)) :
    Leaves (.literalString text) rest := by
  fun_induction parseLiteralString s generalizing text rest with
  | case1 =>
    cases h
    intro c hc
    cases hc
  | case2 c s hspecial =>
    cases h
    intro d hd
    cases hd
    rcases hspecial with hc | hc | hc
    · exact Or.inl hc
    · exact Or.inr (Or.inl hc)
    · exact Or.inr (Or.inr (Or.inl hc))
  | case3 => cases h
  | case4 c s hrange =>
    cases h
    intro d hd
    cases hd
    exact Or.inr (Or.inr (Or.inr hrange))
  | case5 c s _ _ ih =>
    simp only [bind_eq_ok, pure_eq_ok] at h
    obtain ⟨r, hr, h⟩ := h
    cases h
    have hrest := ih hr
    exact hrest
  | case6 c s _ _ hrange =>
    cases h
    intro d hd
    cases hd
    exact Or.inr (Or.inr (Or.inr hrange))
  | case7 c s _ _ _ ih =>
    simp only [bind_eq_ok, pure_eq_ok] at h
    obtain ⟨r, hr, h⟩ := h
    cases h
    have hrest := ih hr
    exact hrest

theorem parseLiteralString_ne_nil {c : Char} (hc : ¬ (c = '?' ∨ c = '{' ∨ c = '*'))
    (h : parseLiteralString (c :: s) = .ok (text, rest)) : text ≠ [] := by
  rw [parseLiteralString.eq_def] at h
  dsimp only at h
  rw [if_neg hc] at h
  split at h
  · split at h
    · cases h
    · split at h
      · cases h
        exact List.cons_ne_nil _ _
      · simp only [bind_eq_ok, pure_eq_ok] at h
        obtain ⟨r, -, h⟩ := h
        cases h
        exact List.cons_ne_nil _ _
  · split at h
    · cases h
      exact List.cons_ne_nil _ _
    · simp only [bind_eq_ok, pure_eq_ok] at h
      obtain ⟨r, -, h⟩ := h
      cases h
      exact List.cons_ne_nil _ _

/-- A set that is no negated one does not begin with `^`, which would have been read before. -/
theorem parseSet_formed {e : Elem} (h : parseSet casesensitive s = .ok (e, rest)) :
    e.Formed dottedpath casesensitive ∧ Leaves e rest ∧ ∀ l : Elem, l.Before e := by
  unfold parseSet at h
  dsimp only at h
  split at h
  · simp only [bind_eq_ok, pure_eq_ok] at h
    obtain ⟨r, hr, h⟩ := h
    cases h
    exact ⟨(parseRanges_braced hr).fold casesensitive, trivial, fun l => by cases l <;> trivial⟩
  · next hcaret =>
    simp only [bind_eq_ok, pure_eq_ok] at h
    obtain ⟨⟨ranges, rest⟩, hr, h⟩ := h
    cases h
    refine ⟨⟨(parseRanges_braced hr).fold casesensitive, fun range hrange hfirst => ?_⟩, trivial,
      fun l => by cases l <;> trivial⟩
    cases ranges with
    | nil => cases hrange
    | cons range' ranges =>
      cases hrange
      have hfirst' : range'.1 = '^' := by
        cases casesensitive with
        | true => exact hfirst
        | false => exact eq_of_toUpper hfirst rfl
      obtain ⟨u, hu⟩ := List.head?_eq_some_iff.mp (parseRanges_head hr)
      rw [hfirst'] at hu
      exact hcaret u hu

theorem isLiteral_iff {last : Option Elem} :
    isLiteral last = true ↔ ∃ text, last = some (.literalString text) := by
  constructor
  · intro h
    cases last with
    | none => cases h
    | some l =>
      cases l with
      | literalString text => exact ⟨text, rfl⟩
      | _ => cases h
  · rintro ⟨text, rfl⟩
    rfl

theorem literal_formed {e : Elem} {c : Char} (hc : ¬ (c = '?' ∨ c = '{' ∨ c = '*'))
    (h : (do
      let (text, rest) ← parseLiteralString (c :: s)
      pure (Elem.literalString text, rest)) = Except.ok (e, rest)) :
    e.Formed dottedpath casesensitive ∧ Leaves e rest ∧ isLiteral (some e) = true := by
  simp only [bind_eq_ok, pure_eq_ok] at h
  obtain ⟨r, hr, h⟩ := h
  cases h
  exact ⟨parseLiteralString_ne_nil hc hr, parseLiteralString_leaves hr, rfl⟩

/-- Only a literal may not stand before another one. -/
theorem before_literal {l e : Elem} (he : isLiteral (some e) = true)
    (hl : isLiteral (some l) = false) : l.Before e := by
  cases e with
  | literalString text =>
    cases l with
    | literalString text' => cases hl
    | _ => trivial
  | _ => cases he

/-- A star does not follow a `*`: that one would have been read as `**`. -/
theorem before_star {l e : Elem} (he : isLiteral (some e) = false) (hl : Leaves l ('*' :: s)) :
    l.Before e := by
  cases l with
  | literalString text =>
    cases e with
    | literalString text' => cases he
    | _ => trivial
  | commonSeq => exact absurd rfl hl
  | _ => trivial

/-- **An element that is read is well formed**, leaves its end, and may follow the last one. -/
theorem parseElem_formed {e : Elem} {last : Option Elem} {c : Char}
    (h : parseElem dottedpath casesensitive last (c :: s) = .ok (e, rest))
    (hlast : ∀ l ∈ last, Leaves l (c :: s)) :
    e.Formed dottedpath casesensitive ∧ Leaves e rest ∧ ∀ l ∈ last, l.Before e := by
  unfold parseElem at h
  split at h
  · -- a question mark
    cases h
    cases dottedpath with
    | true => exact ⟨rfl, trivial, fun l _ => by cases l <;> trivial⟩
    | false => exact ⟨rfl, trivial, fun l _ => by cases l <;> trivial⟩
  · -- a bracket: behind a literal it may open a number range
    next heq =>
    cases heq
    dsimp only at h
    split at h
    · next hliteral =>
      obtain ⟨text, rfl⟩ := isLiteral_iff.mp hliteral
      split at h
      · next hrange =>
        cases h
        exact ⟨(parseNumRange_some hrange).2, trivial, fun l _ => by cases l <;> trivial⟩
      · next hrange =>
        -- a literal stops at a bracket for a number range only
        rcases hlast _ rfl '[' rfl with hc | hc | hc | ⟨-, hsome⟩
        · cases hc
        · cases hc
        · cases hc
        · rw [hrange] at hsome
          cases hsome
    · next hliteral =>
      obtain ⟨hformed, hleaves, he⟩ := literal_formed (by decide) h
      refine ⟨hformed, hleaves, fun l hl => before_literal he ?_⟩
      rw [Option.mem_def.mp hl] at hliteral
      exact Bool.eq_false_iff.mpr hliteral
  · -- a brace: a number range, or else a set
    next heq =>
    cases heq
    dsimp only at h
    split at h
    · next hrange =>
      cases h
      exact ⟨(parseNumRange_some hrange).2, trivial, fun l _ => by cases l <;> trivial⟩
    · obtain ⟨hformed, hleaves, hbefore⟩ := parseSet_formed h
      exact ⟨hformed, hleaves, fun l _ => hbefore l⟩
  · next heq =>
    cases heq
    cases h
    exact ⟨trivial, trivial, fun l hl => before_star rfl (hlast l hl)⟩
  · next hstar heq =>
    cases heq
    cases h
    cases dottedpath with
    | true =>
      refine ⟨rfl, ?_, fun l hl => before_star rfl (hlast l hl)⟩
      intro hhead
      obtain ⟨u, hu⟩ := List.head?_eq_some_iff.mp hhead
      exact hstar u hu
    | false => exact ⟨trivial, trivial, fun l hl => before_star rfl (hlast l hl)⟩
  · next hquestion hbracket hbrace _ hstar =>
    have hc : ¬ (c = '?' ∨ c = '{' ∨ c = '*') := by
      rintro (rfl | rfl | rfl)
      · exact hquestion _ rfl
      · exact hbrace _ rfl
      · exact hstar _ rfl
    obtain ⟨hformed, hleaves, he⟩ := literal_formed hc h
    refine ⟨hformed, hleaves, fun l hl => before_literal he ?_⟩
    rw [Bool.eq_false_iff]
    intro hliteral
    obtain ⟨text, hl'⟩ := isLiteral_iff.mp hliteral
    cases hl'
    rcases hlast _ hl c rfl with hc' | hc' | hc' | ⟨rfl, -⟩
    · exact hc (Or.inl hc')
    · exact hc (Or.inr (Or.inl hc'))
    · exact hc (Or.inr (Or.inr hc'))
    · exact hbracket _ rfl

theorem tokenize_formed {fuel : Nat} {last : Option Elem}
    (h : tokenize dottedpath casesensitive fuel last s = .ok pattern)
    (hlast : ∀ l ∈ last, Leaves l s) :
    Formed dottedpath casesensitive pattern ∧ ∀ l ∈ last, ∀ e ∈ pattern.head?, l.Before e := by
  induction fuel generalizing s last pattern with
  | zero =>
    have hnil : pattern = [] := by
      cases s <;> cases h <;> rfl
    subst hnil
    exact ⟨⟨List.forall_mem_nil _, .nil⟩, fun l _ e he => by cases he⟩
  | succ fuel ih =>
    cases s with
    | nil =>
      cases h
      exact ⟨⟨List.forall_mem_nil _, .nil⟩, fun l _ e he => by cases he⟩
    | cons c s =>
      simp only [tokenize, bind_eq_ok, pure_eq_ok] at h
      obtain ⟨⟨e, rest⟩, he, es, hes, rfl⟩ := h
      obtain ⟨hformed, hleaves, hbefore⟩ := parseElem_formed he hlast
      obtain ⟨hrest, hnext⟩ := ih hes fun l hl => Option.mem_some.mp hl ▸ hleaves
      refine ⟨⟨?_, List.isChain_cons.mpr ⟨hnext e rfl, hrest.chain⟩⟩, fun l hl e' he' => ?_⟩
      · intro e' he'
        rcases List.mem_cons.mp he' with rfl | he'
        · exact hformed
        · exact hrest.elems e' he'
      · cases he'
        exact hbefore l hl

/-- **What is read is well formed**: no literal is empty, two literals are never neighbours, a `*`
stands before no other star, and a mode has its own wildcards only. In substring mode stars are
added at its ends. -/
theorem setPattern_formed {fullstring : Bool}
    (h : setPattern text dottedpath fullstring casesensitive = .ok pattern) :
    ∃ inner, Formed dottedpath casesensitive inner ∧
      pattern = if fullstring then inner else widen inner := by
  simp only [setPattern, bind_eq_ok, pure_eq_ok] at h
  obtain ⟨inner, hinner, rfl⟩ := h
  exact ⟨inner, (tokenize_formed hinner fun l hl => by cases hl).1, rfl⟩

theorem setPattern_formed_application :
    ∃ inner, Formed true true inner ∧
      applicationPattern = if true = true then inner else widen inner :=
  setPattern_formed setPattern_application

/-! ## Texts without wildcards -/

/-- `strchr` and `strstr` for the characters that mean something else. -/
def containsWildcards (pattern : List Char) : Bool :=
  '?' ∈ pattern || '*' ∈ pattern || '\\' ∈ pattern || '{' ∈ pattern || ['.', '.'] <:+: pattern

/-- The pattern of a text that is one literal. -/
def literalPattern (text : List Char) : List Elem := if text = [] then [] else [.literalString text]

/-- The same text, up to the case of its letters unless case matters. -/
def SameText (casesensitive : Bool) (text text' : List Char) : Prop :=
  List.Forall₂ (SameChar casesensitive) text text'

theorem containsWildcards_false : containsWildcards s = false ↔
    '?' ∉ s ∧ '*' ∉ s ∧ '\\' ∉ s ∧ '{' ∉ s ∧ ¬ ['.', '.'] <:+: s := by
  simp only [containsWildcards, Bool.or_eq_false_iff, decide_eq_false_iff_not, and_assoc]

theorem parseLiteralString_plain (h : containsWildcards s = false) :
    parseLiteralString s = .ok (s, []) := by
  induction s with
  | nil => exact parseLiteralString_end fun c hc => by cases hc
  | cons c s ih =>
    obtain ⟨hquestion, hstar, hescape, hbrace, hdots⟩ := containsWildcards_false.mp h
    have hspecial : ¬ (c = '?' ∨ c = '{' ∨ c = '*') := by
      rintro (rfl | rfl | rfl)
      · exact hquestion List.mem_cons_self
      · exact hbrace List.mem_cons_self
      · exact hstar List.mem_cons_self
    have hbackslash : c ≠ '\\' := by
      rintro rfl
      exact hescape List.mem_cons_self
    -- a number range would have dots
    have hrange : ¬ (c = '[' ∧ (parseNumRange ']' (c :: s)).isSome) := by
      rintro ⟨-, hsome⟩
      obtain ⟨⟨fromnum, tonum, rest⟩, hsome⟩ := Option.isSome_iff_exists.mp hsome
      exact hdots (parseNumRange_some hsome).1
    have hrest : containsWildcards s = false := by
      refine containsWildcards_false.mpr ⟨?_, ?_, ?_, ?_, ?_⟩
      · exact fun hc => hquestion (List.mem_cons_of_mem _ hc)
      · exact fun hc => hstar (List.mem_cons_of_mem _ hc)
      · exact fun hc => hescape (List.mem_cons_of_mem _ hc)
      · exact fun hc => hbrace (List.mem_cons_of_mem _ hc)
      · exact fun hpart => hdots (hpart.trans (List.suffix_cons c s).isInfix)
    rw [parseLiteralString.eq_def]
    dsimp only
    rw [if_neg hspecial, if_neg hbackslash, if_neg hrange, ih hrest]
    rfl

theorem tokenize_plain (h : containsWildcards text = false) :
    tokenize dottedpath casesensitive text.length none text = .ok (literalPattern text) := by
  cases text with
  | nil => rfl
  | cons c text =>
    obtain ⟨hquestion, hstar, -, hbrace, -⟩ := containsWildcards_false.mp h
    have hliteral := parseLiteralString_plain h
    have helem : parseElem dottedpath casesensitive none (c :: text) =
        .ok (.literalString (c :: text), []) := by
      unfold parseElem
      split
      · next heq =>
        cases heq
        exact absurd List.mem_cons_self hquestion
      · next heq =>
        cases heq
        simp only [isLiteral, Bool.false_eq_true, if_false, hliteral]
        rfl
      · next heq =>
        cases heq
        exact absurd List.mem_cons_self hbrace
      · next heq =>
        cases heq
        exact absurd List.mem_cons_self hstar
      · next heq =>
        cases heq
        exact absurd List.mem_cons_self hstar
      · simp only [hliteral]
        rfl
    rw [List.length_cons, tokenize, helem]
    · simp only [bind, Except.bind, tokenize]
      cases text.length <;> rfl
    · exact List.cons_ne_nil c text

theorem reads_literalPattern (text : List Char) :
    Reads casesensitive (literalPattern text) s t ↔
      ∃ part, SameText casesensitive text part ∧ s = part ++ t := by
  unfold literalPattern
  split
  · next hnil =>
    subst hnil
    exact word_nil.symm
  · exact sequence_singleton

theorem literalPattern_not_suffix (text : List Char) : ¬ EndsInSuffix (literalPattern text) := by
  rintro ⟨text', hsuffix⟩
  have hlength := hsuffix.length_le
  unfold literalPattern at hlength
  split at hlength
  · cases hlength
  · cases hlength with
    | step h => cases h

/-- **A text without wildcards matches itself only**, or in substring mode what contains it. -/
theorem matches_plain (h : containsWildcards text = false) (fullstring : Bool) :
    ∃ pattern, setPattern text dottedpath fullstring casesensitive = .ok pattern ∧
      ∀ line, «matches» casesensitive pattern line = true ↔
        ∃ part, SameText casesensitive text part ∧
          if fullstring then part = line else part <:+: line := by
  refine ⟨_, by rw [setPattern, tokenize_plain h]; rfl, fun line => ?_⟩
  cases fullstring with
  | true =>
    show «matches» casesensitive (literalPattern text) line = true ↔ _
    rw [matches_iff (Or.inr (literalPattern_not_suffix text)), reads_literalPattern]
    constructor
    · rintro ⟨part, hsame, rfl⟩
      exact ⟨part, hsame, (List.append_nil part).symm⟩
    · rintro ⟨part, hsame, heq⟩
      have heq : part = line := heq
      exact ⟨part, hsame, by rw [heq, List.append_nil]⟩
  | false =>
    show «matches» casesensitive (widen (literalPattern text)) line = true ↔ _
    rw [matches_widen]
    constructor
    · rintro ⟨s, t, hs, hreads⟩
      obtain ⟨part, hsame, rfl⟩ := (reads_literalPattern text).mp hreads
      exact ⟨part, hsame, (List.prefix_append part t).isInfix.trans hs.isInfix⟩
    · rintro ⟨part, hsame, ⟨front, t, heq⟩⟩
      refine ⟨part ++ t, t, ⟨front, by rw [← heq, List.append_assoc]⟩, ?_⟩
      exact (reads_literalPattern text).mpr ⟨part, hsame, rfl⟩

theorem matches_plain_device :
    ∃ pattern, setPattern "tsnDevice[0]".toList true false false = .ok pattern ∧
      ∀ line, «matches» false pattern line = true ↔
        ∃ part, SameText false "tsnDevice[0]".toList part ∧
          if false = true then part = line else part <:+: line :=
  matches_plain (by decide +kernel) false

end CooperativeTsn.PatternMatcher
