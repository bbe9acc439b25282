import CooperativeTsn.Infra.JsonGrammar

/-!
# A parser for JSON

A recursive descent parser, and its completeness: it accepts what the grammar derives, with the
value that the grammar gives. So a text has at most one value. What follows a number must not go on
like one, and nothing that may follow a value does.

* `parseNumber_append`, `parseString_append` — the tokens
* `parse_of_derives` — every phrase is parsed, if there is fuel for its length
* `parseText_of_text` — every text is parsed
* `Text.unique` — a text denotes one value
-/

namespace Infra.JsonText

def skipWs (text : List Char) : List Char := text.dropWhile isWs

/-! ## The parser -/

/-- At least one digit. -/
def parseDigits (text : List Char) : Option (List Char × List Char) :=
  if text.takeWhile (·.isDigit) = [] then none
  else some (text.takeWhile (·.isDigit), text.dropWhile (·.isDigit))

def parseInt : List Char → Option (Nat × List Char)
  | [] => none
  | c :: text =>
    if c = '0' then some (0, text)
    else (parseDigits (c :: text)).map fun r => (natOf r.1, r.2)

def parseFrac : List Char → Option (Rat × List Char)
  | [] => some (0, [])
  | c :: text =>
    if c = '.' then (parseDigits text).map fun r => (natOf r.1 / 10 ^ r.1.length, r.2)
    else some (0, c :: text)

def parseSign : List Char → Int × List Char
  | [] => (1, [])
  | c :: text => if c = '+' then (1, text) else if c = '-' then (-1, text) else (1, c :: text)

def parseExp : List Char → Option (Int × List Char)
  | [] => some (0, [])
  | c :: text =>
    if c = 'e' ∨ c = 'E' then
      (parseDigits (parseSign text).2).map fun r => ((parseSign text).1 * natOf r.1, r.2)
    else some (0, c :: text)

def parseUnsigned (text : List Char) : Option (Rat × List Char) := do
  let (n, text) ← parseInt text
  let (q, text) ← parseFrac text
  let (k, text) ← parseExp text
  pure ((n + q) * 10 ^ k, text)

def parseNumber : List Char → Option (Rat × List Char)
  | [] => none
  | c :: text =>
    if c = '-' then (parseUnsigned text).map fun r => (-r.1, r.2) else parseUnsigned (c :: text)

def parseHex4 : List Char → Option (Nat × List Char)
  | a :: b :: c :: d :: text => (hex4 a b c d).map (·, text)
  | _ => none

/-- The second of two surrogates. -/
def parseLow (high : Nat) : List Char → Option (Char × List Char)
  | c :: d :: text =>
    if c = '\\' ∧ d = 'u' then do
      let (low, text) ← parseHex4 text
      if IsLowSurrogate low then pure (Char.ofNat (ofSurrogates high low), text) else none
    else none
  | _ => none

def parseUnicode (text : List Char) : Option (Char × List Char) := do
  let (n, text) ← parseHex4 text
  if IsHighSurrogate n then parseLow n text
  else if IsLowSurrogate n then none
  else pure (Char.ofNat n, text)

def parsePiece : List Char → Option (Char × List Char)
  | [] => none
  | c :: text =>
    if IsPlain c then some (c, text)
    else if c = '\\' then
      match text with
      | [] => none
      | e :: text => if e = 'u' then parseUnicode text else (escaped e).map (·, text)
    else none

/-- The characters up to the closing quote. -/
def parseChars : Nat → List Char → Option (List Char × List Char)
  | 0, _ => none
  | _ + 1, [] => none
  | fuel + 1, c :: text =>
    if c = '"' then some ([], text)
    else do
      let (c, text) ← parsePiece (c :: text)
      let (cs, text) ← parseChars fuel text
      pure (c :: cs, text)

def parseString : List Char → Option (String × List Char)
  | [] => none
  | c :: text =>
    if c = '"' then (parseChars text.length text).map fun r => (String.ofList r.1, r.2) else none

/-- The rest after a literal. -/
def parseLiteral (literal text : List Char) : Option (List Char) :=
  if text.take literal.length = literal then some (text.drop literal.length) else none

def parseToken : List Char → Option (Json × List Char)
  | [] => none
  | c :: text =>
    if c = 'n' then (parseLiteral ['u', 'l', 'l'] text).map (.null, ·)
    else if c = 't' then (parseLiteral ['r', 'u', 'e'] text).map (.bool true, ·)
    else if c = 'f' then (parseLiteral ['a', 'l', 's', 'e'] text).map (.bool false, ·)
    else if c = '"' then (parseString (c :: text)).map fun r => (.string r.1, r.2)
    else (parseNumber (c :: text)).map fun r => (.number r.1, r.2)

/-- What follows an opening bracket. -/
def parseBody (e : Element) (many : List Char → Option (List e.Result × List Char))
    (text : List Char) : Option (Json × List Char) :=
  match skipWs text with
  | [] => none
  | c :: rest =>
    if c = e.closing then some (e.wrap [], rest)
    else (many (c :: rest)).map fun r => (e.wrap r.1, r.2)

def parse : Nat → (k : Kind) → List Char → Option (k.Result × List Char)
  | 0, _, _ => none
  | _ + 1, .one .value, [] => none
  | fuel + 1, .one .value, c :: text =>
    if c = Element.value.opening then parseBody .value (parse fuel (.many .value)) text
    else if c = Element.member.opening then parseBody .member (parse fuel (.many .member)) text
    else parseToken (c :: text)
  | fuel + 1, .one .member, text => do
    let (key, text) ← parseString text
    match skipWs text with
    | [] => none
    | c :: text =>
      if c = ':' then (parse fuel (.one .value) (skipWs text)).map fun r => ((key, r.1), r.2)
      else none
  | fuel + 1, .many e, text => do
    let (r, text) ← parse fuel (.one e) text
    match skipWs text with
    | [] => none
    | c :: text =>
      if c = e.closing then some ([r], text)
      else if c = ',' then (parse fuel (.many e) (skipWs text)).map fun rs => (r :: rs.1, rs.2)
      else none

/-- A whole text. -/
def parseText (text : List Char) : Option Json := do
  let (j, rest) ← parse (skipWs text).length (.one .value) (skipWs text)
  if skipWs rest = [] then pure j else none

/-! ## Whitespace -/

theorem skipWs_append {ws text : List Char} (h : Ws ws) : skipWs (ws ++ text) = skipWs text :=
  List.dropWhile_append_of_pos h

theorem skipWs_cons {c : Char} {text : List Char} (h : isWs c = false) :
    skipWs (c :: text) = c :: text :=
  List.dropWhile_cons_of_neg (by rw [h]; exact Bool.false_ne_true)

theorem skipWs_of_ws {ws : List Char} (h : Ws ws) : skipWs ws = [] := by
  rw [← List.append_nil ws, skipWs_append h]
  rfl

/-- The parser is after the whitespace where a phrase begins. -/
theorem skipWs_phrase {ws text rest : List Char} {k : Kind} {r : k.Result} (hws : Ws ws)
    (h : Derives k text r rest) : skipWs (ws ++ text) = text := by
  obtain ⟨c, tail, rfl, hc⟩ := h.exists_start
  rw [skipWs_append hws, skipWs_cons hc.1]

/-! ## Numbers -/

/-- A text that does not go on with digits. -/
def NoDigit (rest : List Char) : Prop := ∀ c ∈ rest.head?, c.isDigit = false

/-- A text that may follow a number. -/
def Follow (rest : List Char) : Prop :=
  ∀ c ∈ rest.head?, c.isDigit = false ∧ c ≠ '.' ∧ c ≠ 'e' ∧ c ≠ 'E'

theorem Follow.noDigit {rest : List Char} (h : Follow rest) : NoDigit rest :=
  fun c hc => (h c hc).1

theorem follow_cons {c : Char} {rest : List Char}
    (h : c.isDigit = false ∧ c ≠ '.' ∧ c ≠ 'e' ∧ c ≠ 'E') : Follow (c :: rest) := by
  intro c' hc'
  cases hc'
  exact h

theorem follow_nil : Follow [] := fun _ hc => nomatch hc

theorem parseDigits_append {d : Char} {ds rest : List Char} (hds : Digits (d :: ds))
    (hrest : NoDigit rest) : parseDigits (d :: (ds ++ rest)) = some (d :: ds, rest) := by
  have htake : rest.takeWhile (·.isDigit) = [] := by
    cases rest with
    | nil => rfl
    | cons c rest => exact List.takeWhile_cons_of_neg (by simp [hrest c rfl])
  have hdrop : rest.dropWhile (·.isDigit) = rest := by
    cases rest with
    | nil => rfl
    | cons c rest => exact List.dropWhile_cons_of_neg (by simp [hrest c rfl])
  rw [parseDigits, ← List.cons_append, List.takeWhile_append_of_pos hds,
    List.dropWhile_append_of_pos hds, htake, hdrop, List.append_nil,
    if_neg (List.cons_ne_nil d ds)]

theorem parseInt_append {t rest : List Char} {n : Nat} (h : IsInt t n) (hrest : NoDigit rest) :
    parseInt (t ++ rest) = some (n, rest) := by
  cases h with
  | zero => rfl
  | digits hds hd =>
    rw [List.cons_append, parseInt, if_neg hd, parseDigits_append hds hrest]
    rfl

theorem parseFrac_append {t rest : List Char} {q : Rat} (h : IsFrac t q) (hrest : NoDigit rest)
    (hdot : ∀ c ∈ rest.head?, c ≠ '.') : parseFrac (t ++ rest) = some (q, rest) := by
  cases h with
  | none =>
    rw [List.nil_append]
    cases rest with
    | nil => rfl
    | cons c rest => rw [parseFrac, if_neg (hdot c rfl)]
  | digits hds =>
    rw [List.cons_append, List.cons_append, parseFrac, if_pos rfl, parseDigits_append hds hrest]
    rfl

theorem parseSign_append {sign rest : List Char} {s : Int} {d : Char} (h : IsSign sign s)
    (hd : d.isDigit = true) : parseSign (sign ++ d :: rest) = (s, d :: rest) := by
  cases h with
  | none =>
    rw [List.nil_append, parseSign, if_neg (ne_of_isDigit hd (by decide)),
      if_neg (ne_of_isDigit hd (by decide))]
  | plus => rfl
  | minus => rfl

theorem parseExp_append {t rest : List Char} {k : Int} (h : IsExp t k) (hrest : Follow rest) :
    parseExp (t ++ rest) = some (k, rest) := by
  cases h with
  | none =>
    rw [List.nil_append]
    cases rest with
    | nil => rfl
    | cons c rest =>
      have hc := (hrest c rfl).2.2
      rw [parseExp, if_neg (not_or.mpr hc)]
  | digits he hsign hds =>
    rw [List.cons_append, List.append_assoc, List.cons_append, parseExp, if_pos he,
      parseSign_append hsign (hds _ List.mem_cons_self), parseDigits_append hds hrest.noDigit]
    rfl

/-- Neither digits nor a dot follow the digits before the exponent. -/
theorem exp_head {t rest : List Char} {k : Int} (h : IsExp t k) (hrest : Follow rest) :
    ∀ c ∈ (t ++ rest).head?, c.isDigit = false ∧ c ≠ '.' := by
  cases h with
  | none => exact fun c hc => ⟨(hrest c hc).1, (hrest c hc).2.1⟩
  | digits he _ _ =>
    rintro c hc
    cases hc
    rcases he with rfl | rfl <;> decide

theorem frac_head {t rest : List Char} {q : Rat} (h : IsFrac t q) (hrest : NoDigit rest) :
    NoDigit (t ++ rest) := by
  cases h with
  | none => exact hrest
  | digits _ =>
    rintro c hc
    cases hc
    decide

theorem parseUnsigned_append {t rest : List Char} {x : Rat} (h : IsUnsigned t x)
    (hrest : Follow rest) : parseUnsigned (t ++ rest) = some (x, rest) := by
  obtain ⟨hint, hfrac, hexp⟩ := h
  have hexpHead := exp_head hexp hrest
  have hnoDigit : NoDigit (_ ++ rest) := fun c hc => (hexpHead c hc).1
  rw [parseUnsigned, List.append_assoc, List.append_assoc,
    parseInt_append hint (frac_head hfrac hnoDigit)]
  simp only [Option.bind_eq_bind, Option.bind_some, parseExp_append hexp hrest,
    parseFrac_append hfrac hnoDigit fun c hc => (hexpHead c hc).2]
  rfl

theorem parseNumber_append {t rest : List Char} {x : Rat} (h : IsNumber t x)
    (hrest : Follow rest) : parseNumber (t ++ rest) = some (x, rest) := by
  cases h with
  | unsigned hx =>
    obtain ⟨c, tail, rfl, hc⟩ := hx.exists_digit
    rw [List.cons_append, parseNumber, if_neg (ne_of_isDigit hc (by decide)),
      ← List.cons_append, parseUnsigned_append hx hrest]
  | minus hx =>
    rw [List.cons_append, parseNumber, if_pos rfl, parseUnsigned_append hx hrest]
    rfl

/-! ## Strings -/

theorem parseUnicode_append {h₁ h₂ h₃ h₄ c : Char} {rest : List Char}
    (h : hex4 h₁ h₂ h₃ h₄ = some c.toNat) :
    parseUnicode (h₁ :: h₂ :: h₃ :: h₄ :: rest) = some (c, rest) := by
  have hvalid : c.toNat < 0xD800 ∨ 0xDFFF < c.toNat := by
    rcases c.valid with hlt | hgt
    · exact .inl hlt
    · exact .inr hgt.1
  have hhigh : ¬ IsHighSurrogate c.toNat := fun hn => by
    rw [IsHighSurrogate] at hn
    omega
  have hlow : ¬ IsLowSurrogate c.toNat := fun hn => by
    rw [IsLowSurrogate] at hn
    omega
  rw [parseUnicode, parseHex4, h, Option.map_some, Option.bind_eq_bind, Option.bind_some]
  simp only [if_neg hhigh, if_neg hlow, Char.ofNat_toNat]
  rfl

theorem parseSurrogates_append {h₁ h₂ h₃ h₄ l₁ l₂ l₃ l₄ c : Char} {rest : List Char}
    {high low : Nat} (hh : hex4 h₁ h₂ h₃ h₄ = some high) (hl : hex4 l₁ l₂ l₃ l₄ = some low)
    (hhigh : IsHighSurrogate high) (hlow : IsLowSurrogate low)
    (hc : c.toNat = ofSurrogates high low) :
    parseUnicode (h₁ :: h₂ :: h₃ :: h₄ :: '\\' :: 'u' :: l₁ :: l₂ :: l₃ :: l₄ :: rest) =
      some (c, rest) := by
  rw [parseUnicode, parseHex4, hh, Option.map_some, Option.bind_eq_bind, Option.bind_some]
  simp only [if_pos hhigh]
  rw [parseLow, if_pos ⟨rfl, rfl⟩, parseHex4, hl, Option.map_some, Option.bind_eq_bind,
    Option.bind_some]
  simp only [if_pos hlow, ← hc, Char.ofNat_toNat]
  rfl

theorem parsePiece_append {t rest : List Char} {c : Char} (h : Piece t c) :
    parsePiece (t ++ rest) = some (c, rest) := by
  cases h with
  | plain hc => exact if_pos hc
  | @escaped e _ hc =>
    have hu : e ≠ 'u' := by
      rintro rfl
      cases hc
    rw [List.cons_append, List.cons_append, parsePiece, if_neg (by decide), if_pos rfl]
    simp only [if_neg hu, hc]
    rfl
  | unicode hc =>
    rw [List.cons_append, List.cons_append, parsePiece, if_neg (by decide), if_pos rfl]
    exact parseUnicode_append hc
  | surrogates hh hl hhigh hlow hc =>
    rw [List.cons_append, List.cons_append, parsePiece, if_neg (by decide), if_pos rfl]
    exact parseSurrogates_append hh hl hhigh hlow hc

/-- No character is written with a quote at the front. -/
theorem Piece.exists_head {t : List Char} {c : Char} (h : Piece t c) :
    ∃ d tail, t = d :: tail ∧ d ≠ '"' := by
  cases h with
  | plain hc => exact ⟨c, [], rfl, hc.2.1⟩
  | escaped _ => exact ⟨_, _, rfl, by decide⟩
  | unicode _ => exact ⟨_, _, rfl, by decide⟩
  | surrogates _ _ _ _ _ => exact ⟨_, _, rfl, by decide⟩

theorem parseChars_append {t cs rest : List Char} (h : Chars t cs) {fuel : Nat}
    (hfuel : t.length < fuel) : parseChars fuel (t ++ '"' :: rest) = some (cs, rest) := by
  induction h generalizing fuel with
  | nil =>
    obtain ⟨fuel, rfl⟩ := Nat.exists_eq_add_of_lt hfuel
    rfl
  | @cons t ts cs c hpiece _ ih =>
    obtain ⟨d, tail, rfl, hd⟩ := hpiece.exists_head
    rw [List.cons_append, List.length_cons, List.length_append] at hfuel
    obtain ⟨fuel, rfl⟩ : ∃ n, fuel = n + 1 := ⟨fuel - 1, by omega⟩
    rw [List.append_assoc, List.cons_append, parseChars, if_neg hd, ← List.cons_append,
      parsePiece_append hpiece, Option.bind_eq_bind, Option.bind_some]
    simp only [ih (by omega : ts.length < fuel), Option.bind_eq_bind, Option.bind_some]
    rfl

theorem parseString_append {t rest : List Char} {s : String} (h : IsString t s) :
    parseString (t ++ rest) = some (s, rest) := by
  obtain ⟨hchars⟩ := h
  rw [List.cons_append, parseString, if_pos rfl, List.append_assoc, List.singleton_append,
    parseChars_append hchars (by rw [List.length_append, List.length_cons]; omega)]
  rfl

/-! ## Phrases -/

theorem IsNumber.exists_head {t : List Char} {x : Rat} (h : IsNumber t x) :
    ∃ c tail, t = c :: tail ∧ c ≠ 'n' ∧ c ≠ 't' ∧ c ≠ 'f' ∧ c ≠ '"' := by
  cases h with
  | unsigned hx =>
    obtain ⟨c, tail, rfl, hc⟩ := hx.exists_digit
    exact ⟨c, tail, rfl, ne_of_isDigit hc (by decide), ne_of_isDigit hc (by decide),
      ne_of_isDigit hc (by decide), ne_of_isDigit hc (by decide)⟩
  | minus _ => exact ⟨_, _, rfl, by decide⟩

theorem parseToken_append {t rest : List Char} {j : Json} (h : Token t j) (hrest : Follow rest) :
    parseToken (t ++ rest) = some (j, rest) := by
  cases h with
  | null => rfl
  | true => rfl
  | false => rfl
  | number hx =>
    obtain ⟨c, tail, rfl, hn, ht, hf, hquote⟩ := hx.exists_head
    rw [List.cons_append, parseToken, if_neg hn, if_neg ht, if_neg hf, if_neg hquote,
      ← List.cons_append, parseNumber_append hx hrest]
    rfl
  | string hs =>
    have hparse : parseString (_ ++ rest) = _ := parseString_append hs
    obtain ⟨_⟩ := hs
    rw [List.cons_append] at hparse ⊢
    rw [parseToken, if_neg (by decide), if_neg (by decide), if_neg (by decide), if_pos rfl, hparse]
    rfl

theorem closing_ne_comma (e : Element) : ',' ≠ e.closing := by
  cases e <;> decide

theorem isWs_closing (e : Element) : isWs e.closing = false := by
  cases e <;> rfl

theorem follow_of_isWs {c : Char} {rest : List Char} (h : isWs c = true) :
    Follow (c :: rest) := by
  refine follow_cons ?_
  simp only [isWs, Bool.or_eq_true, decide_eq_true_eq] at h
  rcases h with ((rfl | rfl) | rfl) | rfl <;> decide

theorem follow_of_ws {ws : List Char} (h : Ws ws) : Follow ws := by
  cases ws with
  | nil => exact follow_nil
  | cons c ws => exact follow_of_isWs (h c List.mem_cons_self)

/-- Whitespace and what ends an element may follow a number. -/
theorem follow_ws {ws rest : List Char} {c : Char} (hws : Ws ws) (hc : Follow (c :: rest)) :
    Follow (ws ++ c :: rest) := by
  cases ws with
  | nil => exact hc
  | cons d ws => exact follow_of_isWs (hws d List.mem_cons_self)

theorem follow_closing {rest : List Char} (e : Element) : Follow (e.closing :: rest) :=
  follow_cons (by cases e <;> decide)

theorem follow_comma {rest : List Char} : Follow (',' :: rest) := follow_cons (by decide)

/-- What may follow a phrase: a list ends with its bracket. -/
def Follows : Kind → List Char → Prop
  | .one _, rest => Follow rest
  | .many _, _ => True

/-- A phrase takes fuel. -/
theorem Derives.exists_fuel {k : Kind} {text rest : List Char} {r : k.Result}
    (h : Derives k text r rest) {fuel : Nat} (hfuel : text.length ≤ fuel + rest.length) :
    ∃ n, fuel = n + 1 := by
  have hlt := h.rest_lt
  exact ⟨fuel - 1, by omega⟩

theorem parse_opening {fuel : Nat} {text : List Char} : ∀ e : Element,
    parse (fuel + 1) (.one .value) (e.opening :: text) =
      parseBody e (parse fuel (.many e)) text
  | .value => by rw [parse, if_pos rfl]
  | .member => by rw [parse, if_neg (by decide), if_pos rfl]

theorem parseBody_empty {e : Element} {many : List Char → Option (List e.Result × List Char)}
    {ws rest : List Char} (hws : Ws ws) :
    parseBody e many (ws ++ e.closing :: rest) = some (e.wrap [], rest) := by
  rw [parseBody, skipWs_append hws, skipWs_cons (isWs_closing e)]
  exact if_pos rfl

theorem parseBody_phrase {e : Element} {many : List Char → Option (List e.Result × List Char)}
    {ws text rest : List Char} {k : Kind} {r : k.Result} (hws : Ws ws)
    (h : Derives k text r rest) :
    parseBody e many (ws ++ text) = (many text).map fun rs => (e.wrap rs.1, rs.2) := by
  rw [parseBody, skipWs_phrase hws h]
  obtain ⟨c, tail, rfl, hc⟩ := h.exists_start
  exact if_neg (hc.2 e)

/-- **Completeness**: what the grammar derives, the parser accepts. -/
theorem parse_of_derives {k : Kind} {text rest : List Char} {r : k.Result}
    (h : Derives k text r rest) {fuel : Nat} (hfuel : text.length ≤ fuel + rest.length)
    (hfollow : Follows k rest) : parse fuel k text = some (r, rest) := by
  obtain ⟨fuel, rfl⟩ := h.exists_fuel hfuel
  -- a derivation leaves a shorter rest, so each part of it gets by with the fuel that is left
  induction h generalizing fuel with
  | token htoken =>
    obtain ⟨c, tail, rfl, -, hopening⟩ := htoken.exists_start
    rw [List.cons_append, parse, if_neg (hopening .value), if_neg (hopening .member),
      ← List.cons_append, parseToken_append htoken hfollow]
  | empty e hws => rw [parse_opening, parseBody_empty hws]
  | list e hws hmany ih =>
    rw [List.length_cons, List.length_append] at hfuel
    obtain ⟨fuel, rfl⟩ := hmany.exists_fuel (by omega : _ ≤ fuel + _)
    rw [parse_opening, parseBody_phrase hws hmany, ih trivial _ (by omega)]
    rfl
  | member hkey hws hws' hvalue ih =>
    simp only [List.length_cons, List.length_append] at hfuel
    obtain ⟨fuel, rfl⟩ := hvalue.exists_fuel (by omega : _ ≤ fuel + _)
    rw [parse, parseString_append hkey, Option.bind_eq_bind, Option.bind_some]
    simp only [skipWs_append hws, skipWs_cons (by decide : isWs ':' = false), if_pos,
      skipWs_phrase hws' hvalue, ih hfollow fuel (by omega)]
    rfl
  | @last text ws rest e r hone hws ih =>
    have hle : text.length ≤ fuel + (ws ++ e.closing :: rest).length := by
      rw [List.length_append, List.length_cons]
      omega
    obtain ⟨fuel, rfl⟩ := hone.exists_fuel hle
    have hparse := ih (follow_ws hws (follow_closing e)) fuel hle
    rw [parse, hparse, Option.bind_eq_bind, Option.bind_some]
    simp only [skipWs_append hws, skipWs_cons (isWs_closing e), if_pos]
  | @cons text ws ws' text' rest e r rs hone hws hws' hmany ih ih' =>
    have hlt := hone.rest_lt
    have hlt' := hmany.rest_lt
    simp only [List.length_cons, List.length_append] at hlt
    have hle : text.length ≤ fuel + (ws ++ ',' :: (ws' ++ text')).length := by
      simp only [List.length_cons, List.length_append]
      omega
    obtain ⟨fuel, rfl⟩ := hone.exists_fuel hle
    have hparse := ih (follow_ws hws follow_comma) fuel hle
    have hparse' := ih' trivial fuel (by omega)
    rw [parse, hparse, Option.bind_eq_bind, Option.bind_some]
    simp only [skipWs_append hws, skipWs_cons (by decide : isWs ',' = false),
      if_neg (closing_ne_comma e), if_pos, skipWs_phrase hws' hmany, hparse']
    rfl

/-- **Every text is parsed** to what it denotes. -/
theorem parseText_of_text {text : List Char} {j : Json} (h : Text text j) :
    parseText text = some j := by
  obtain ⟨hws, hvalue, hws'⟩ := h
  have hfollow := follow_of_ws hws'
  rw [parseText, skipWs_phrase hws hvalue,
    parse_of_derives hvalue (Nat.le_add_right _ _) hfollow, Option.bind_eq_bind, Option.bind_some]
  exact if_pos (skipWs_of_ws hws')

/-- A text denotes one value. -/
theorem Text.unique {text : List Char} {j j' : Json} (h : Text text j) (h' : Text text j') :
    j = j' :=
  Option.some_injective _ ((parseText_of_text h).symm.trans (parseText_of_text h'))

end Infra.JsonText
