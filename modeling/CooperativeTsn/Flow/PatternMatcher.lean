import CooperativeTsn.Config.Value
import Mathlib.Data.List.Infix

/-!
# `PatternMatcher`

Patterns with wildcards, sets and number ranges. A pattern is the list of its elements; the end of
the list is the element `END`. The end of a C string is the end of the list of characters.

* `setPattern_name` — a pattern without special characters is one literal
* `matches_name` — in substring mode it matches the lines that contain it, whatever the case
* `setPattern_star`, `matches_star` — a literal followed by a star matches what adds one component
-/

namespace CooperativeTsn

open Infra.Runs

namespace PatternMatcher

/-- An element of a pattern. Bounds of a number range are optional. -/
inductive Elem where
  | literalString (text : List Char)
  | anyChar
  | commonChar
  | set (ranges : List (Char × Char))
  | negSet (ranges : List (Char × Char))
  | numRange (fromnum tonum : Option Int)
  | anySeq
  | commonSeq
deriving DecidableEq, Repr

/-! ## Parsing -/

/-- The largest `long`. -/
def longMax : Int := 9223372036854775807

/-- `atol` stops at the largest `long`. -/
def number (digits : List Char) : Int :=
  min (digits.foldl (fun n c => 10 * n + (c.toNat - '0'.toNat)) 0) longMax

/-- A bound that is missing is unset. -/
def bound (digits : List Char) : Option Int := if digits = [] then none else some (number digits)

/--
Tries to parse `[n..m]` or `{n..m}`, from the opening character on. On success the rest begins with
the closing character.
-/
def parseNumRange (closingchar : Char) : List Char → Option (Option Int × Option Int × List Char)
  | [] => none
  | _ :: s =>
    match s.dropWhile Char.isDigit with
    | '.' :: '.' :: t =>
      match t.dropWhile Char.isDigit with
      | c :: rest =>
        if c = closingchar then
          some (bound (s.takeWhile Char.isDigit), bound (t.takeWhile Char.isDigit), c :: rest)
        else none
      | [] => none
    | _ => none

/-- The character ranges of a set, up to its closing brace. The first character may be a brace. -/
def parseRanges : Bool → List Char → Except SimError (List (Char × Char) × List Char)
  | _, [] => .error (.runtimeError "unmatched '\x7d' in expression")
  | first, c :: s =>
    if c = '}' ∧ !first then pure ([], s)
    else
      match s with
      | '-' :: d :: t =>
        if d ≠ '}' then do
          let (ranges, rest) ← parseRanges false t
          pure ((c, d) :: ranges, rest)
        else do
          let (ranges, rest) ← parseRanges false ('-' :: d :: t)
          pure ((c, c) :: ranges, rest)
      | s => do
        let (ranges, rest) ← parseRanges false s
        pure ((c, c) :: ranges, rest)

/-- A set, from the opening brace on. -/
def parseSet (casesensitive : Bool) (s : List Char) : Except SimError (Elem × List Char) := do
  let fold := fun (range : Char × Char) =>
    if casesensitive then range else (range.1.toUpper, range.2.toUpper)
  match s.drop 1 with
  | '^' :: s =>
    let (ranges, rest) ← parseRanges true s
    pure (.negSet (ranges.map fold), rest)
  | s =>
    let (ranges, rest) ← parseRanges true s
    pure (.set (ranges.map fold), rest)

/--
A literal. It ends before a wildcard or a set, and behind the bracket that opens a number range;
the rest begins with that bracket once more.
-/
def parseLiteralString : List Char → Except SimError (List Char × List Char)
  | [] => pure ([], [])
  | c :: s =>
    if c = '?' ∨ c = '{' ∨ c = '*' then pure ([], c :: s)
    else if c = '\\' then
      match s with
      | [] => .error .nullPointer
      | d :: s =>
        if d = '[' ∧ (parseNumRange ']' (d :: s)).isSome then pure ([d], d :: s)
        else do
          let (text, rest) ← parseLiteralString s
          pure (d :: text, rest)
    else if c = '[' ∧ (parseNumRange ']' (c :: s)).isSome then pure ([c], c :: s)
    else do
      let (text, rest) ← parseLiteralString s
      pure (c :: text, rest)

def isLiteral : Option Elem → Bool
  | some (.literalString _) => true
  | _ => false

/-- One element from the front of the text. `last` is the element before it. -/
def parseElem (dottedpath casesensitive : Bool) (last : Option Elem) (s : List Char) :
    Except SimError (Elem × List Char) :=
  let literal := do
    let (text, rest) ← parseLiteralString s
    pure (Elem.literalString text, rest)
  match s with
  | '?' :: s => pure (if dottedpath then .commonChar else .anyChar, s)
  | '[' :: s =>
    if isLiteral last then
      match parseNumRange ']' ('[' :: s) with
      | some (fromnum, tonum, rest) => pure (.numRange fromnum tonum, rest)
      | none => literal
    else literal
  | '{' :: s =>
    match parseNumRange '}' ('{' :: s) with
    | some (fromnum, tonum, rest) => pure (.numRange fromnum tonum, rest.drop 1)
    | none => parseSet casesensitive ('{' :: s)
  | '*' :: '*' :: s => pure (.anySeq, s)
  | '*' :: s => pure (if dottedpath then .commonSeq else .anySeq, s)
  | _ => literal

/--
The length of the text is enough fuel: a literal may leave its last bracket behind, but then a number
range of at least four characters follows.
-/
def tokenize (dottedpath casesensitive : Bool) :
    Nat → Option Elem → List Char → Except SimError (List Elem)
  | _, _, [] => pure []
  | 0, _, _ => pure []
  | fuel + 1, last, s => do
    let (e, rest) ← parseElem dottedpath casesensitive last s
    let es ← tokenize dottedpath casesensitive fuel (some e) rest
    pure (e :: es)

/-- Adds "**" at both ends of a pattern, unless already there. -/
def widen (pattern : List Elem) : List Elem :=
  let pattern := if pattern.getLast? = some .anySeq then pattern else pattern ++ [.anySeq]
  if pattern.head? = some .anySeq then pattern else .anySeq :: pattern

def setPattern (text : List Char) (dottedpath fullstring casesensitive : Bool) :
    Except SimError (List Elem) := do
  let pattern ← tokenize dottedpath casesensitive text.length none text
  pure (if fullstring then pattern else widen pattern)

/-! ## Matching -/

/-- Equality of characters. -/
def sameChar (casesensitive : Bool) (c d : Char) : Bool :=
  if casesensitive then c = d else c.toLower = d.toLower

/-- Does the line begin with the text? -/
def startsWith (casesensitive : Bool) : List Char → List Char → Bool
  | [], _ => true
  | _ :: _, [] => false
  | c :: text, d :: s => sameChar casesensitive c d && startsWith casesensitive text s

def isInSet (casesensitive : Bool) (c : Char) (ranges : List (Char × Char)) : Bool :=
  let c := if casesensitive then c else c.toUpper
  ranges.any fun range => range.1 ≤ c ∧ c ≤ range.2

def inBounds (num : Int) (fromnum tonum : Option Int) : Bool :=
  (fromnum.all fun n => n ≤ num) && tonum.all fun n => num ≤ n

def doMatch (casesensitive : Bool) : List Elem → List Char → Bool
  | [], s => s.isEmpty
  | .literalString text :: p, s =>
    startsWith casesensitive text s && doMatch casesensitive p (s.drop text.length)
  | .anyChar :: p, s =>
    match s with
    | [] => false
    | _ :: s => doMatch casesensitive p s
  | .commonChar :: p, s =>
    match s with
    | [] => false
    | c :: s => c ≠ '.' && doMatch casesensitive p s
  | .set ranges :: p, s =>
    match s with
    | [] => false
    | c :: s => isInSet casesensitive c ranges && doMatch casesensitive p s
  | .negSet ranges :: p, s =>
    match s with
    | [] => false
    | c :: s => !isInSet casesensitive c ranges && doMatch casesensitive p s
  | .numRange fromnum tonum :: p, s =>
    s.head?.any Char.isDigit && inBounds (number (s.takeWhile Char.isDigit)) fromnum tonum &&
      doMatch casesensitive p (s.dropWhile Char.isDigit)
  | [.anySeq], _ => true
  | [.anySeq, .literalString text], s => text.isSuffixOf s
  | .anySeq :: p, s => s.tails.any (doMatch casesensitive p)
  | .commonSeq :: p, s =>
    s.tails.any fun t =>
      doMatch casesensitive p t && '.' ∉ s.take (s.length - t.length)

/-- The last two characters of a line differ from those of the literal that the pattern ends in. -/
def endsDiffer (pattern : List Elem) (line : List Char) : Bool :=
  match pattern.getLast? with
  | some (.literalString text) =>
    2 ≤ text.length && 2 ≤ line.length && text.drop (text.length - 2) ≠ line.drop (line.length - 2)
  | _ => false

def «matches» (casesensitive : Bool) (pattern : List Elem) (line : List Char) : Bool :=
  if casesensitive && endsDiffer pattern line then false else doMatch casesensitive pattern line

/-! ## Names as patterns -/

/-- A name: letters, digits and underscores. -/
def IsName (text : List Char) : Prop := ∀ c ∈ text, c.isAlphanum ∨ c = '_'

theorem IsName.not_special {c : Char} (h : c.isAlphanum ∨ c = '_') :
    c ≠ '?' ∧ c ≠ '{' ∧ c ≠ '*' ∧ c ≠ '\\' ∧ c ≠ '[' := by
  refine ⟨?_, ?_, ?_, ?_, ?_⟩ <;> rintro rfl <;> simp [Char.isAlphanum] at h

theorem parseLiteralString_name : ∀ {text : List Char}, IsName text →
    parseLiteralString text = .ok (text, [])
  | [], _ => rfl
  | c :: text, h => by
    obtain ⟨h1, h2, h3, h4, h5⟩ := IsName.not_special (h c List.mem_cons_self)
    have ih := parseLiteralString_name fun d hd => h d (List.mem_cons_of_mem _ hd)
    rw [parseLiteralString.eq_def]
    dsimp only
    rw [if_neg (by simp [h1, h2, h3]), if_neg h4, if_neg (by simp [h5]), ih]
    rfl

theorem tokenize_name {text : List Char} (h : IsName text) (hne : text ≠ [])
    (dottedpath casesensitive : Bool) :
    tokenize dottedpath casesensitive text.length none text = .ok [.literalString text] := by
  match text with
  | c :: text =>
    obtain ⟨h1, h2, h3, -, h5⟩ := IsName.not_special (h c List.mem_cons_self)
    have helem : parseElem dottedpath casesensitive none (c :: text) =
        .ok (.literalString (c :: text), []) := by
      rw [parseElem, parseLiteralString_name h]
      · rfl
      all_goals simp [h1, h2, h3, h5]
    rw [List.length_cons, tokenize, helem]
    · simp only [bind, Except.bind, tokenize]
      cases text.length <;> rfl
    · exact List.cons_ne_nil c text

/-- The pattern of a name in substring mode. -/
def namePattern (text : List Char) : List Elem :=
  if text = [] then [.anySeq] else [.anySeq, .literalString text, .anySeq]

theorem setPattern_name {text : List Char} (h : IsName text) (dottedpath casesensitive : Bool) :
    setPattern text dottedpath false casesensitive = .ok (namePattern text) := by
  rw [setPattern, namePattern]
  by_cases hne : text = []
  · subst hne
    rfl
  · rw [tokenize_name h hne, if_neg hne]
    rfl

/-- Two texts are the same up to the case of their letters. -/
def lower (text : List Char) : List Char := text.map Char.toLower

theorem startsWith_iff : ∀ {text s : List Char},
    startsWith false text s = true ↔ lower text <+: lower s
  | [], s => by simp [startsWith, lower]
  | c :: text, [] => by simp [startsWith, lower]
  | c :: text, d :: s => by
    have ih : startsWith false text s = true ↔ lower text <+: lower s := startsWith_iff
    simp only [lower] at ih
    simp [startsWith, sameChar, lower, ih]

/-- **In substring mode a name matches the lines that contain it, whatever the case.** -/
theorem matches_name (text line : List Char) :
    «matches» false (namePattern text) line = true ↔ lower text <:+: lower line := by
  rw [«matches», Bool.false_and, if_neg Bool.false_ne_true, namePattern]
  split
  · next h =>
    subst h
    simp [doMatch, lower]
  · have hdo : doMatch false [.anySeq, .literalString text, .anySeq] line =
        line.tails.any (startsWith false text) := by
      simp [doMatch]
    rw [hdo, List.any_eq_true]
    constructor
    · rintro ⟨t, ht, hstart⟩
      obtain ⟨pre, rfl⟩ := (List.mem_tails _ _).mp ht
      rw [startsWith_iff] at hstart
      rw [show lower (pre ++ t) = lower pre ++ lower t from List.map_append]
      exact hstart.isInfix.trans (List.suffix_append _ _).isInfix
    · rintro ⟨pre, post, heq⟩
      -- cut the line where the text begins
      refine ⟨line.drop pre.length, (List.mem_tails _ _).mpr (List.drop_suffix _ _), ?_⟩
      have hdrop : lower (line.drop pre.length) = (lower line).drop pre.length := List.map_drop
      rw [startsWith_iff, hdrop, ← heq, List.append_assoc, List.drop_left]
      exact List.prefix_append _ _

/-! ## Paths followed by a star -/

/-- A text that is read as one literal, whatever follows it. -/
def IsLiteral : List Char → Prop
  | [] => True
  | c :: s => (c ≠ '?' ∧ c ≠ '{' ∧ c ≠ '*' ∧ c ≠ '\\' ∧
      (c = '[' → ∀ rest, parseNumRange ']' (c :: (s ++ rest)) = none)) ∧ IsLiteral s

theorem IsLiteral.append : ∀ {a b : List Char}, IsLiteral a → IsLiteral b → IsLiteral (a ++ b)
  | [], _, _, hb => hb
  | c :: a, b, ⟨⟨h1, h2, h3, h4, h5⟩, ha⟩, hb => by
    refine ⟨⟨h1, h2, h3, h4, fun hc rest => ?_⟩, ha.append hb⟩
    show parseNumRange ']' (c :: (a ++ b ++ rest)) = none
    rw [List.append_assoc]
    exact h5 hc _

theorem IsName.isLiteral : ∀ {text : List Char}, IsName text → IsLiteral text
  | [], _ => trivial
  | c :: text, h => by
    obtain ⟨h1, h2, h3, h4, h5⟩ := IsName.not_special (h c List.mem_cons_self)
    exact ⟨⟨h1, h2, h3, h4, fun hc => absurd hc h5⟩,
      IsName.isLiteral fun d hd => h d (List.mem_cons_of_mem _ hd)⟩

/-- An index in brackets is no number range: no dots follow the digits. -/
theorem isLiteral_index {digits : List Char} (h : ∀ c ∈ digits, c.isDigit = true) :
    IsLiteral ('[' :: (digits ++ [']'])) := by
  have hdigits : IsLiteral digits :=
    IsName.isLiteral fun c hc => Or.inl (by simp [Char.isAlphanum, h c hc])
  refine ⟨⟨by decide, by decide, by decide, by decide, fun _ rest => ?_⟩,
    hdigits.append ⟨⟨by decide, by decide, by decide, by decide, fun h => absurd h (by decide)⟩,
      trivial⟩⟩
  have hdrop : (digits ++ [']'] ++ rest).dropWhile Char.isDigit = ']' :: rest := by
    rw [List.append_assoc, List.dropWhile_append_of_pos h]
    rfl
  rw [parseNumRange, hdrop]
  rfl

theorem parseLiteralString_star (rest : List Char) : ∀ {text : List Char}, IsLiteral text →
    parseLiteralString (text ++ '*' :: rest) = .ok (text, '*' :: rest)
  | [], _ => by rw [List.nil_append, parseLiteralString.eq_def]; rfl
  | c :: text, ⟨⟨h1, h2, h3, h4, h5⟩, h⟩ => by
    have ih := parseLiteralString_star rest h
    have hrange : ¬ (c = '[' ∧ (parseNumRange ']' (c :: (text ++ '*' :: rest))).isSome) := by
      rintro ⟨hc, hsome⟩
      rw [h5 hc] at hsome
      cases hsome
    rw [List.cons_append, parseLiteralString.eq_def]
    dsimp only
    rw [if_neg (by simp [h1, h2, h3]), if_neg h4, if_neg hrange, ih]
    rfl

theorem setPattern_star {text : List Char} (h : IsLiteral text) (hne : text ≠ [])
    (casesensitive : Bool) :
    setPattern (text ++ ['*']) true true casesensitive = .ok [.literalString text, .commonSeq] := by
  match text with
  | c :: text =>
    obtain ⟨⟨h1, h2, h3, -, -⟩, -⟩ := id h
    have helem : parseElem true casesensitive none (c :: text ++ ['*']) =
        .ok (.literalString (c :: text), ['*']) := by
      have hlit := parseLiteralString_star [] h
      by_cases hc : c = '['
      · subst hc
        rw [List.cons_append] at hlit ⊢
        simp only [parseElem, isLiteral, Bool.false_eq_true, if_false, hlit]
        rfl
      · rw [List.cons_append] at hlit ⊢
        rw [parseElem, hlit]
        · rfl
        all_goals simp [h1, h2, h3, hc]
    have hstar : parseElem true casesensitive (some (.literalString (c :: text))) ['*'] =
        .ok (.commonSeq, []) := rfl
    rw [setPattern, List.length_append, List.length_cons, List.length_singleton, tokenize, helem]
    · simp only [bind, Except.bind, tokenize, hstar]
      rfl
    · exact List.cons_ne_nil _ _

theorem startsWith_sensitive_iff : ∀ {text s : List Char}, startsWith true text s = true ↔ text <+: s
  | [], s => by simp [startsWith]
  | c :: text, [] => by simp [startsWith]
  | c :: text, d :: s => by
    have ih : startsWith true text s = true ↔ text <+: s := startsWith_sensitive_iff
    simp [startsWith, sameChar, ih]

theorem doMatch_commonSeq (casesensitive : Bool) (s : List Char) :
    doMatch casesensitive [.commonSeq] s = decide ('.' ∉ s) := by
  rw [doMatch, Bool.eq_iff_iff, List.any_eq_true, decide_eq_true_eq]
  constructor
  · rintro ⟨t, -, ht⟩
    simp only [doMatch, Bool.and_eq_true, List.isEmpty_iff, decide_eq_true_eq] at ht
    obtain ⟨rfl, hdot⟩ := ht
    simpa using hdot
  · intro hdot
    exact ⟨[], (List.mem_tails _ _).mpr List.nil_suffix, by simpa [doMatch] using hdot⟩

/-- **A star stands for one component of a path.** -/
theorem matches_star (text line : List Char) :
    «matches» true [.literalString text, .commonSeq] line = true ↔
      ∃ last, line = text ++ last ∧ '.' ∉ last := by
  have hdo : «matches» true [.literalString text, .commonSeq] line =
      (startsWith true text line && decide ('.' ∉ line.drop text.length)) := by
    rw [«matches», Bool.true_and, if_neg (by simp [endsDiffer]), doMatch, doMatch_commonSeq]
  rw [hdo, Bool.and_eq_true, startsWith_sensitive_iff, decide_eq_true_eq]
  constructor
  · rintro ⟨⟨last, rfl⟩, hdot⟩
    rw [List.drop_left] at hdot
    exact ⟨last, rfl, hdot⟩
  · rintro ⟨last, rfl, hdot⟩
    rw [List.drop_left]
    exact ⟨List.prefix_append _ _, hdot⟩

end PatternMatcher

end CooperativeTsn
