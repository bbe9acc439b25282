import Mathlib.Data.Rat.Defs
import Mathlib.Algebra.Field.Rat

/-!
# The grammar of JSON

What a text denotes, rule by rule as in the grammar of RFC 8259. A text is a list of characters. A
rule reads the beginning of a text and leaves the rest, so `Derives k text r rest` says that `text`
is a phrase of the kind `k` that denotes `r`, followed by `rest`.

* `Token` — literals, numbers and strings
* `Derives` — values, members, and lists of them up to the closing bracket
* `Text` — a value between whitespace
* `rest_lt`, `exists_start` — a phrase is not empty, and begins with no whitespace and no bracket
  that closes
-/

namespace Infra.JsonText

/-- What a JSON text denotes. The members of an object are in the order of the text. -/
inductive Json where
  | null
  | bool (b : Bool)
  | number (x : Rat)
  | string (s : String)
  | array (items : List Json)
  | object (members : List (String × Json))

/-! ## Whitespace -/

def isWs (c : Char) : Bool := c = ' ' || c = '\t' || c = '\n' || c = '\r'

def Ws (ws : List Char) : Prop := ∀ c ∈ ws, isWs c = true

instance (ws : List Char) : Decidable (Ws ws) := List.decidableBAll _ ws

theorem ws_nil : Ws [] := List.forall_mem_nil _

/-! ## Numbers -/

/-- The number that digits denote. -/
def natOf (ds : List Char) : Nat := ds.foldl (fun n c => 10 * n + (c.toNat - '0'.toNat)) 0

def Digits (ds : List Char) : Prop := ∀ c ∈ ds, c.isDigit = true

instance (ds : List Char) : Decidable (Digits ds) := List.decidableBAll _ ds

/-- An integer has no leading zeros. -/
inductive IsInt : List Char → Nat → Prop
  | zero : IsInt ['0'] 0
  | digits {d : Char} {ds : List Char} : Digits (d :: ds) → d ≠ '0' →
      IsInt (d :: ds) (natOf (d :: ds))

inductive IsFrac : List Char → Rat → Prop
  | none : IsFrac [] 0
  | digits {d : Char} {ds : List Char} : Digits (d :: ds) →
      IsFrac ('.' :: d :: ds) (natOf (d :: ds) / 10 ^ (d :: ds).length)

inductive IsSign : List Char → Int → Prop
  | none : IsSign [] 1
  | plus : IsSign ['+'] 1
  | minus : IsSign ['-'] (-1)

inductive IsExp : List Char → Int → Prop
  | none : IsExp [] 0
  | digits {e d : Char} {sign ds : List Char} {s : Int} : e = 'e' ∨ e = 'E' → IsSign sign s →
      Digits (d :: ds) → IsExp (e :: (sign ++ d :: ds)) (s * natOf (d :: ds))

inductive IsUnsigned : List Char → Rat → Prop
  | parts {int frac exp : List Char} {n : Nat} {q : Rat} {k : Int} : IsInt int n → IsFrac frac q →
      IsExp exp k → IsUnsigned (int ++ (frac ++ exp)) ((n + q) * 10 ^ k)

inductive IsNumber : List Char → Rat → Prop
  | unsigned {t : List Char} {x : Rat} : IsUnsigned t x → IsNumber t x
  | minus {t : List Char} {x : Rat} : IsUnsigned t x → IsNumber ('-' :: t) (-x)

/-! ## Strings -/

/-- The characters that are escaped by a letter or by themselves. -/
def escaped (e : Char) : Option Char :=
  if e = '"' ∨ e = '\\' ∨ e = '/' then some e
  else if e = 'b' then some '\x08'
  else if e = 'f' then some '\x0c'
  else if e = 'n' then some '\n'
  else if e = 'r' then some '\r'
  else if e = 't' then some '\t'
  else none

def hexDigit (c : Char) : Option Nat :=
  if c.isDigit then some (c.toNat - '0'.toNat)
  else if 'a'.toNat ≤ c.toNat ∧ c.toNat ≤ 'f'.toNat then some (c.toNat - 'a'.toNat + 10)
  else if 'A'.toNat ≤ c.toNat ∧ c.toNat ≤ 'F'.toNat then some (c.toNat - 'A'.toNat + 10)
  else none

/-- The code unit that four hexadecimal digits denote. -/
def hex4 (a b c d : Char) : Option Nat := do
  let a ← hexDigit a
  let b ← hexDigit b
  let c ← hexDigit c
  let d ← hexDigit d
  pure (a * 0x1000 + b * 0x100 + c * 0x10 + d)

def IsHighSurrogate (n : Nat) : Prop := 0xD800 ≤ n ∧ n < 0xDC00

def IsLowSurrogate (n : Nat) : Prop := 0xDC00 ≤ n ∧ n < 0xE000

instance (n : Nat) : Decidable (IsHighSurrogate n) := inferInstanceAs (Decidable (_ ∧ _))

instance (n : Nat) : Decidable (IsLowSurrogate n) := inferInstanceAs (Decidable (_ ∧ _))

/-- The number of the character that two surrogates denote. -/
def ofSurrogates (high low : Nat) : Nat := 0x10000 + (high - 0xD800) * 0x400 + (low - 0xDC00)

/-- A character that a string may have as it is. -/
def IsPlain (c : Char) : Prop := 0x20 ≤ c.toNat ∧ c ≠ '"' ∧ c ≠ '\\'

instance (c : Char) : Decidable (IsPlain c) := inferInstanceAs (Decidable (_ ∧ _))

/-- A text that a string may have as it is. -/
def PlainText (cs : List Char) : Prop := ∀ c ∈ cs, IsPlain c

instance (cs : List Char) : Decidable (PlainText cs) := List.decidableBAll _ cs

/-- How a character can be written in a string. -/
inductive Piece : List Char → Char → Prop
  | plain {c : Char} : IsPlain c → Piece [c] c
  | escaped {e c : Char} : escaped e = some c → Piece ['\\', e] c
  | unicode {h₁ h₂ h₃ h₄ c : Char} : hex4 h₁ h₂ h₃ h₄ = some c.toNat →
      Piece ['\\', 'u', h₁, h₂, h₃, h₄] c
  | surrogates {h₁ h₂ h₃ h₄ l₁ l₂ l₃ l₄ c : Char} {high low : Nat} :
      hex4 h₁ h₂ h₃ h₄ = some high → hex4 l₁ l₂ l₃ l₄ = some low → IsHighSurrogate high →
      IsLowSurrogate low → c.toNat = ofSurrogates high low →
      Piece ['\\', 'u', h₁, h₂, h₃, h₄, '\\', 'u', l₁, l₂, l₃, l₄] c

inductive Chars : List Char → List Char → Prop
  | nil : Chars [] []
  | cons {t ts cs : List Char} {c : Char} : Piece t c → Chars ts cs → Chars (t ++ ts) (c :: cs)

/-- A string in quotes. -/
inductive IsString : List Char → String → Prop
  | quoted {t cs : List Char} : Chars t cs → IsString ('"' :: (t ++ ['"'])) (String.ofList cs)

theorem chars_of_plain : ∀ {cs : List Char}, PlainText cs → Chars cs cs
  | [], _ => .nil
  | c :: _, h => .cons (.plain (h c List.mem_cons_self))
      (chars_of_plain fun d hd => h d (List.mem_cons_of_mem _ hd))

/-- A text without characters to escape is written as it is. -/
theorem isString_of_plain {s : String} (h : PlainText s.toList) :
    IsString ('"' :: (s.toList ++ ['"'])) s := by
  have hquoted := IsString.quoted (chars_of_plain h)
  rwa [String.ofList_toList] at hquoted

/-! ## Values -/

inductive Token : List Char → Json → Prop
  | null : Token ['n', 'u', 'l', 'l'] .null
  | true : Token ['t', 'r', 'u', 'e'] (.bool true)
  | false : Token ['f', 'a', 'l', 's', 'e'] (.bool false)
  | number {t : List Char} {x : Rat} : IsNumber t x → Token t (.number x)
  | string {t : List Char} {s : String} : IsString t s → Token t (.string s)

/-- What lists are made of. -/
inductive Element where
  | value
  | member

namespace Element

abbrev Result : Element → Type
  | value => Json
  | member => String × Json

def opening : Element → Char
  | value => '['
  | member => '\x7b'

def closing : Element → Char
  | value => ']'
  | member => '\x7d'

/-- The value that a list in brackets denotes. -/
def wrap : (e : Element) → List e.Result → Json
  | value, items => .array items
  | member, members => .object members

end Element

/-- The kinds of phrases. A phrase of the kind `many e` ends with the closing bracket. -/
inductive Kind where
  | one (e : Element)
  | many (e : Element)

abbrev Kind.Result : Kind → Type
  | one e => e.Result
  | many e => List e.Result

/-- **The grammar.** -/
inductive Derives : (k : Kind) → List Char → k.Result → List Char → Prop
  | token {t rest : List Char} {j : Json} : Token t j → Derives (.one .value) (t ++ rest) j rest
  | empty {ws rest : List Char} (e : Element) : Ws ws →
      Derives (.one .value) (e.opening :: (ws ++ e.closing :: rest)) (e.wrap []) rest
  | list {ws text rest : List Char} (e : Element) {rs : List e.Result} : Ws ws →
      Derives (.many e) text rs rest →
      Derives (.one .value) (e.opening :: (ws ++ text)) (e.wrap rs) rest
  | member {t ws ws' text rest : List Char} {key : String} {j : Json} : IsString t key → Ws ws →
      Ws ws' → Derives (.one .value) text j rest →
      Derives (.one .member) (t ++ (ws ++ ':' :: (ws' ++ text))) (key, j) rest
  | last {text ws rest : List Char} {e : Element} {r : e.Result} :
      Derives (.one e) text r (ws ++ e.closing :: rest) → Ws ws →
      Derives (.many e) text [r] rest
  | cons {text ws ws' text' rest : List Char} {e : Element} {r : e.Result} {rs : List e.Result} :
      Derives (.one e) text r (ws ++ ',' :: (ws' ++ text')) → Ws ws → Ws ws' →
      Derives (.many e) text' rs rest → Derives (.many e) text (r :: rs) rest

/-- A whole text. -/
inductive Text : List Char → Json → Prop
  | value {ws ws' text : List Char} {j : Json} : Ws ws → Derives (.one .value) text j ws' →
      Ws ws' → Text (ws ++ text) j

/-! ## How phrases begin -/

/-- A character that begins a value or a member. -/
def IsStart (c : Char) : Prop := isWs c = false ∧ ∀ e : Element, c ≠ e.closing

theorem ne_of_isDigit {c d : Char} (h : c.isDigit = true) (hd : d.isDigit = false) : c ≠ d := by
  rintro rfl
  rw [h] at hd
  cases hd

theorem isStart_of_isDigit {c : Char} (h : c.isDigit = true) : IsStart c := by
  constructor
  · have hne : c ≠ ' ' ∧ c ≠ '\t' ∧ c ≠ '\n' ∧ c ≠ '\r' :=
      ⟨ne_of_isDigit h (by decide), ne_of_isDigit h (by decide), ne_of_isDigit h (by decide),
        ne_of_isDigit h (by decide)⟩
    simpa [isWs, and_assoc] using hne
  · rintro (_ | _) <;> exact ne_of_isDigit h (by decide)

theorem IsInt.exists_digit {t : List Char} {n : Nat} (h : IsInt t n) :
    ∃ c tail, t = c :: tail ∧ c.isDigit = true := by
  cases h with
  | zero => exact ⟨_, _, rfl, by decide⟩
  | digits hds _ => exact ⟨_, _, rfl, hds _ List.mem_cons_self⟩

theorem IsUnsigned.exists_digit {t : List Char} {x : Rat} (h : IsUnsigned t x) :
    ∃ c tail, t = c :: tail ∧ c.isDigit = true := by
  obtain ⟨hint, _, _⟩ := h
  obtain ⟨c, tail, rfl, hc⟩ := hint.exists_digit
  exact ⟨c, _, List.cons_append, hc⟩

/-- A token is not empty, and no list begins as it does. -/
theorem Token.exists_start {t : List Char} {j : Json} (h : Token t j) :
    ∃ c tail, t = c :: tail ∧ IsStart c ∧ ∀ e : Element, c ≠ e.opening := by
  have hdigit {t : List Char} {x : Rat} (hx : IsUnsigned t x) :
      ∃ c tail, t = c :: tail ∧ IsStart c ∧ ∀ e : Element, c ≠ e.opening := by
    obtain ⟨c, tail, rfl, hc⟩ := hx.exists_digit
    refine ⟨c, tail, rfl, isStart_of_isDigit hc, ?_⟩
    rintro (_ | _) <;> exact ne_of_isDigit hc (by decide)
  have hfixed {c : Char} (tail : List Char)
      (hc : c = 'n' ∨ c = 't' ∨ c = 'f' ∨ c = '"' ∨ c = '-') :
      ∃ c' tail', c :: tail = c' :: tail' ∧ IsStart c' ∧ ∀ e : Element, c' ≠ e.opening := by
    refine ⟨c, tail, rfl, ?_, ?_⟩
    · rcases hc with rfl | rfl | rfl | rfl | rfl <;>
        exact ⟨by decide, by rintro (_ | _) <;> decide⟩
    · rcases hc with rfl | rfl | rfl | rfl | rfl <;> rintro (_ | _) <;> decide
  cases h with
  | null => exact hfixed _ (by simp)
  | true => exact hfixed _ (by simp)
  | false => exact hfixed _ (by simp)
  | number hx =>
    cases hx with
    | unsigned hx => exact hdigit hx
    | minus _ => exact hfixed _ (by simp)
  | string hs =>
    cases hs
    exact hfixed _ (by simp)

theorem isStart_opening (e : Element) : IsStart e.opening := by
  constructor
  · cases e <;> decide
  · intro e'
    cases e <;> cases e' <;> decide

/-- A phrase begins with a character that is neither whitespace nor a closing bracket. -/
theorem Derives.exists_start {k : Kind} {text rest : List Char} {r : k.Result}
    (h : Derives k text r rest) : ∃ c tail, text = c :: tail ∧ IsStart c := by
  induction h with
  | token htoken =>
    obtain ⟨c, tail, rfl, hc, -⟩ := htoken.exists_start
    exact ⟨c, _, List.cons_append, hc⟩
  | empty e _ => exact ⟨_, _, rfl, isStart_opening e⟩
  | list e _ _ _ => exact ⟨_, _, rfl, isStart_opening e⟩
  | member hkey _ _ _ _ =>
    cases hkey
    exact ⟨_, _, List.cons_append, by decide, by rintro (_ | _) <;> decide⟩
  | last _ _ ih => exact ih
  | cons _ _ _ _ ih _ => exact ih

/-- A phrase is not empty. -/
theorem Derives.rest_lt {k : Kind} {text rest : List Char} {r : k.Result}
    (h : Derives k text r rest) : rest.length < text.length := by
  induction h with
  | token htoken =>
    obtain ⟨c, tail, rfl, -⟩ := htoken.exists_start
    rw [List.length_append, List.length_cons]
    omega
  | empty e _ =>
    simp only [List.length_cons, List.length_append]
    omega
  | list e _ _ ih =>
    simp only [List.length_cons, List.length_append]
    omega
  | member _ _ _ _ ih =>
    simp only [List.length_cons, List.length_append]
    omega
  | last _ _ ih =>
    simp only [List.length_cons, List.length_append] at ih
    omega
  | cons _ _ _ _ ih ih' =>
    simp only [List.length_cons, List.length_append] at ih
    omega

/-! ## Writing a list -/

/-- Elements with commas between them, and whitespace in front of each and of the bracket. -/
theorem derives_separated {α : Type} {e : Element} {write : α → List Char} {denote : α → e.Result}
    {ws ws' rest : List Char} (hws : Ws ws) (hws' : Ws ws') : ∀ {a : α} {as : List α},
    (∀ a' ∈ a :: as, ∀ rest, Derives (.one e) (write a' ++ rest) (denote a') rest) →
    Derives (.many e) (write a ++ ((as.flatMap fun a' => ',' :: (ws ++ write a')) ++
      (ws' ++ e.closing :: rest))) ((a :: as).map denote) rest
  | a, [], h => .last (h a List.mem_cons_self _) hws'
  | a, a' :: as, h => by
    have hfirst := h a List.mem_cons_self (',' :: (ws ++ (write a' ++
      ((as.flatMap fun a' => ',' :: (ws ++ write a')) ++ (ws' ++ e.closing :: rest)))))
    have hothers : Derives (.many e) _ _ rest :=
      derives_separated hws hws' fun a'' ha'' => h a'' (List.mem_cons_of_mem _ ha'')
    simp only [List.flatMap_cons, List.cons_append, List.append_assoc]
    exact .cons hfirst ws_nil hws hothers

/-- A list in brackets, empty or not. -/
theorem derives_bracketed {α : Type} {e : Element} {write : α → List Char} {denote : α → e.Result}
    {ws ws' rest : List Char} (hws : Ws ws) (hws' : Ws ws') {a : α} {as : List α}
    (h : ∀ a' ∈ a :: as, ∀ rest, Derives (.one e) (write a' ++ rest) (denote a') rest) :
    Derives (.one .value) (e.opening :: (ws ++ (write a ++
      ((as.flatMap fun a' => ',' :: (ws ++ write a')) ++ (ws' ++ e.closing :: rest)))))
      (e.wrap ((a :: as).map denote)) rest :=
  .list e hws (derives_separated hws hws' h)

end Infra.JsonText
