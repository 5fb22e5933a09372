import RecoverAI.Framework.Json
import Mathlib.Data.Int.Log
import Mathlib.Algebra.Order.Field.Rat
import Mathlib.Data.List.TakeWhile

/-!
# Strings and numbers in JSON text

How `json.dumps` writes strings and integers with `ensure_ascii`, and how `json.loads` scans
them. A string comes back whatever its characters are, and so does an integer. What is written
is printable ASCII throughout, so it has no line break.

How Python writes a float is a parameter (`float.__repr__`); of it is asked that a float comes
back as it was.
-/

namespace Python

namespace Json

/-! ### Hexadecimal -/

/-- The digits of `\uXXXX`. -/
def hexDigit (n : ℕ) : Char :=
  if n < 10 then Char.ofNat (n + 48) else Char.ofNat (n + 87)

def hexValue (c : Char) : Option ℕ :=
  if '0' ≤ c ∧ c ≤ '9' then some (c.toNat - 48)
  else if 'a' ≤ c ∧ c ≤ 'f' then some (c.toNat - 87)
  else if 'A' ≤ c ∧ c ≤ 'F' then some (c.toNat - 55)
  else none

/-- `f"\\u{n:04x}"` -/
def unicodeEscape (n : ℕ) : List Char :=
  ['\\', 'u', hexDigit (n / 4096), hexDigit (n / 256 % 16), hexDigit (n / 16 % 16),
    hexDigit (n % 16)]

/-- Four hexadecimal digits. -/
def hexValue4 (a b c d : Char) : Option ℕ := do
  let a ← hexValue a
  let b ← hexValue b
  let c ← hexValue c
  let d ← hexValue d
  return a * 4096 + b * 256 + c * 16 + d

theorem hexValue_hexDigit {n : ℕ} (h : n < 16) : hexValue (hexDigit n) = some n := by
  have hall : ∀ n < 16, hexValue (hexDigit n) = some n := by decide
  exact hall n h

theorem hexValue4_unicodeEscape {n : ℕ} (h : n < 65536) :
    hexValue4 (hexDigit (n / 4096)) (hexDigit (n / 256 % 16)) (hexDigit (n / 16 % 16))
      (hexDigit (n % 16)) = some n := by
  have h₁ : n / 4096 < 16 := by omega
  have h₂ : n / 256 % 16 < 16 := by omega
  have h₃ : n / 16 % 16 < 16 := by omega
  have h₄ : n % 16 < 16 := by omega
  have hsum : n / 4096 * 4096 + n / 256 % 16 * 256 + n / 16 % 16 * 16 + n % 16 = n := by omega
  simp only [hexValue4, hexValue_hexDigit h₁, hexValue_hexDigit h₂, hexValue_hexDigit h₃,
    hexValue_hexDigit h₄, Option.bind_eq_bind, Option.bind_some, Option.pure_def, hsum]

/-! ### Writing a string -/

/-- The short escapes, by the character they stand for. -/
def shortEscape (c : Char) : Option Char :=
  if c = '"' then some '"'
  else if c = '\\' then some '\\'
  else if c = '\n' then some 'n'
  else if c = '\r' then some 'r'
  else if c = '\t' then some 't'
  else if c = '\x0c' then some 'f'
  else if c = '\x08' then some 'b'
  else none

/-- One character with `ensure_ascii`: beyond the basic plane it takes two escapes. -/
def escapeChar (c : Char) : List Char :=
  match shortEscape c with
  | some e => ['\\', e]
  | none =>
    if ' ' ≤ c ∧ c ≤ '~' then [c]
    else if c.toNat < 65536 then unicodeEscape c.toNat
    else unicodeEscape (55296 + (c.toNat - 65536) / 1024) ++
      unicodeEscape (56320 + (c.toNat - 65536) % 1024)

/-- A string with its quotes. -/
def stringText (text : String) : List Char := '"' :: (text.toList.flatMap escapeChar ++ ['"'])

/-! ### Scanning a string -/

/-- What a short escape stands for. -/
def unescape (c : Char) : Option Char :=
  if c = '"' then some '"'
  else if c = '\\' then some '\\'
  else if c = '/' then some '/'
  else if c = 'n' then some '\n'
  else if c = 'r' then some '\r'
  else if c = 't' then some '\t'
  else if c = 'f' then some '\x0c'
  else if c = 'b' then some '\x08'
  else none

/-- What a code point scanned from an escape is. A half of a surrogate pair is none. -/
def charOf (n : ℕ) : Option Char := if h : n.isValidChar then some (Char.ofNatAux n h) else none

/-- The rest of a string, after its opening quote. Control characters are not allowed. -/
def scanString : List Char → Option (List Char × List Char)
  | [] => none
  | c :: s =>
    if c = '"' then some ([], s)
    else if c = '\\' then
      match s with
      | 'u' :: a :: b :: c :: d :: s =>
        match hexValue4 a b c d with
        | none => none
        | some high =>
          if 55296 ≤ high ∧ high < 56320 then
            match s with
            | '\\' :: 'u' :: a :: b :: c :: d :: s =>
              match hexValue4 a b c d with
              | none => none
              | some low =>
                if 56320 ≤ low ∧ low < 57344 then do
                  let c ← charOf (65536 + (high - 55296) * 1024 + (low - 56320))
                  let (text, s) ← scanString s
                  return (c :: text, s)
                else none
            | _ => none
          else do
            let c ← charOf high
            let (text, s) ← scanString s
            return (c :: text, s)
      | e :: s => do
        let c ← unescape e
        let (text, s) ← scanString s
        return (c :: text, s)
      | [] => none
    else if c < ' ' then none
    else do
      let (text, s) ← scanString s
      return (c :: text, s)

/-! ### A string comes back -/

/-- Putting a character before what was scanned. -/
def push (c : Char) (scanned : Option (List Char × List Char)) : Option (List Char × List Char) :=
  scanned.map fun p => (c :: p.1, p.2)

theorem charOf_toNat (c : Char) : charOf c.toNat = some c := by
  have hvalid : c.toNat.isValidChar := c.valid
  rw [charOf, dif_pos hvalid]
  rfl

theorem backslash_ne_quote : '\\' ≠ '"' := by decide

theorem scanString_literal {c : Char} (hquote : c ≠ '"') (hback : c ≠ '\\') (hcontrol : ¬ c < ' ')
    (s : List Char) : scanString (c :: s) = push c (scanString s) := by
  rw [scanString.eq_def]
  simp only [if_neg hquote, if_neg hback, if_neg hcontrol, push]
  cases scanString s <;> rfl

theorem scanString_short {c e : Char} (h : shortEscape c = some e) (s : List Char) :
    scanString ('\\' :: e :: s) = push c (scanString s) := by
  -- no short escape begins with the `u` of a long one
  have hshort : e ≠ 'u' ∧ unescape e = some c := by
    unfold shortEscape at h
    split_ifs at h <;> cases h <;> subst_vars <;> decide
  rw [scanString.eq_def]
  simp only [if_neg backslash_ne_quote, if_true]
  split
  · next heq => exact absurd (List.cons.inj heq).1 hshort.1
  · next heq =>
    obtain ⟨rfl, rfl⟩ := List.cons.inj heq
    rw [hshort.2, push]
    cases scanString s <;> rfl
  · next heq => cases heq

/-- One escape, of a character of the basic plane. -/
theorem scanString_unicode {n : ℕ} {c : Char} (h : n < 65536) (hc : charOf n = some c)
    (s : List Char) : scanString (unicodeEscape n ++ s) = push c (scanString s) := by
  have hhigh : ¬ (55296 ≤ n ∧ n < 56320) := by
    rintro ⟨hlow, hlt⟩
    have hnone : charOf n = none := dif_neg fun hvalid => by
      rcases hvalid with hvalid | hvalid <;> omega
    rw [hnone] at hc
    cases hc
  rw [unicodeEscape, scanString.eq_def]
  simp only [List.cons_append, List.nil_append, if_neg backslash_ne_quote, if_true,
    hexValue4_unicodeEscape h, if_neg hhigh, hc, push]
  cases scanString s <;> rfl

/-- Two escapes, of a character beyond it. -/
theorem scanString_pair {n : ℕ} {c : Char} (hlow : 65536 ≤ n) (hlt : n < 1114112)
    (hc : charOf n = some c) (s : List Char) :
    scanString (unicodeEscape (55296 + (n - 65536) / 1024) ++
      (unicodeEscape (56320 + (n - 65536) % 1024) ++ s)) = push c (scanString s) := by
  have h₁ : 55296 + (n - 65536) / 1024 < 65536 := by omega
  have h₂ : 56320 + (n - 65536) % 1024 < 65536 := by omega
  have hhigh : 55296 ≤ 55296 + (n - 65536) / 1024 ∧ 55296 + (n - 65536) / 1024 < 56320 := by omega
  have hlower : 56320 ≤ 56320 + (n - 65536) % 1024 ∧ 56320 + (n - 65536) % 1024 < 57344 := by omega
  have hsum : 65536 + (55296 + (n - 65536) / 1024 - 55296) * 1024 +
      (56320 + (n - 65536) % 1024 - 56320) = n := by omega
  rw [unicodeEscape, scanString.eq_def]
  simp only [unicodeEscape, List.cons_append, List.nil_append, if_neg backslash_ne_quote, if_true,
    hexValue4_unicodeEscape h₁, if_pos hhigh, hexValue4_unicodeEscape h₂, if_pos hlower, hsum, hc,
    push]
  cases scanString s <;> rfl

/-- **A character comes back**, however it is written. -/
theorem scanString_escapeChar (c : Char) (s : List Char) :
    scanString (escapeChar c ++ s) = push c (scanString s) := by
  unfold escapeChar
  cases hshort : shortEscape c with
  | some e => exact scanString_short hshort s
  | none =>
    have hquote : c ≠ '"' := fun he => by
      rw [he] at hshort
      cases hshort
    have hback : c ≠ '\\' := fun he => by
      rw [he] at hshort
      cases hshort
    simp only
    split_ifs with hprint hbasic
    · exact scanString_literal hquote hback (Char.not_lt.mpr hprint.1) s
    · exact scanString_unicode hbasic (charOf_toNat c) s
    · have hlt : c.toNat < 1114112 := by
        rcases c.valid with h | h
        · exact h.trans (by decide)
        · exact h.2
      rw [List.append_assoc]
      exact scanString_pair (not_lt.mp hbasic) hlt (charOf_toNat c) s

/-- **A string comes back.** -/
theorem scanString_stringText (text s : List Char) :
    scanString (text.flatMap escapeChar ++ '"' :: s) = some (text, s) := by
  induction text with
  | nil =>
    rw [List.flatMap_nil, List.nil_append, scanString.eq_def]
    exact if_pos rfl
  | cons c text ih =>
    rw [List.flatMap_cons, List.append_assoc, scanString_escapeChar, ih]
    rfl

/-! ### Scanning a number -/

/-- The nearest binary64 number, the even one of two. -/
def nearest (x : ℚ) : Float :=
  let unit := max (Int.log 2 |x| - 52) (-1074)
  let value : ℚ := roundHalfEven (x / 2 ^ unit) * 2 ^ unit
  if |value| < 2 ^ 1024 then .finite value else .infinite (x < 0)

def scanDigits (s : List Char) : List Char × List Char :=
  (s.takeWhile Char.isDigit, s.dropWhile Char.isDigit)

/-- `0|[1-9]\d*` -/
def scanInteger : List Char → Option (List Char × List Char)
  | [] => none
  | c :: s =>
    if c = '0' then some ([c], s)
    else if c.isDigit then some (scanDigits (c :: s)) else none

/-- `(\.\d+)?`, with the digits only. -/
def scanFraction : List Char → List Char × List Char
  | [] => ([], [])
  | c :: s => if c = '.' ∧ (scanDigits s).1 ≠ [] then scanDigits s else ([], c :: s)

/-- `[-+]?` -/
def scanSign : List Char → Bool × List Char
  | [] => (false, [])
  | c :: s => if c = '-' then (true, s) else if c = '+' then (false, s) else (false, c :: s)

/-- `([eE][-+]?\d+)?` -/
def scanExponent : List Char → Option ℤ × List Char
  | [] => (none, [])
  | c :: s =>
    let (negative, s') := scanSign s
    let (digits, rest) := scanDigits s'
    if (c = 'e' ∨ c = 'E') ∧ digits ≠ [] then
      let n : ℤ := Nat.ofDigitChars 10 digits 0
      (some (if negative then -n else n), rest)
    else (none, c :: s)

/-- `-?` -/
def scanMinus : List Char → Bool × List Char
  | [] => (false, [])
  | c :: s => if c = '-' then (true, s) else (false, c :: s)

/-- The value of the parts of a number: an integer unless there is a fraction or an
exponent. -/
def numberOf (negative : Bool) (digits fraction : List Char) (exponent : Option ℤ) : Json :=
  if fraction = [] ∧ exponent = none then
    .int (if negative then -(Nat.ofDigitChars 10 digits 0 : ℤ) else Nat.ofDigitChars 10 digits 0)
  else
    let mantissa : ℚ := Nat.ofDigitChars 10 (digits ++ fraction) 0
    let value := mantissa * 10 ^ (exponent.getD 0 - fraction.length)
    .float (nearest (if negative then -value else value))

/-- A number, as long as it goes. -/
def scanNumber (s : List Char) : Option (Json × List Char) :=
  match scanInteger (scanMinus s).2 with
  | none => none
  | some (digits, s') =>
    let (fraction, s'') := scanFraction s'
    let (exponent, rest) := scanExponent s''
    some (numberOf (scanMinus s).1 digits fraction exponent, rest)

/-! ### Where a number stops -/

/-- What is skipped between tokens. -/
def isSpace (c : Char) : Bool := c = ' ' || c = '\t' || c = '\n' || c = '\r'

/-- What may stand after a value. -/
def isStop (c : Char) : Bool := isSpace c || c = ',' || c = ']' || c = '}'

/-- Nothing follows, or something that ends a value. -/
def Stops (rest : List Char) : Prop := ∀ c ∈ rest.head?, isStop c = true

theorem stops_nil : Stops [] := fun _ h => by cases h

theorem stops_cons {c : Char} {rest : List Char} (h : isStop c = true) : Stops (c :: rest) := by
  intro c' hc'
  cases hc'
  exact h

theorem not_isDigit_of_isStop {c : Char} (h : isStop c = true) : c.isDigit = false ∧ c ≠ '0' ∧
    c ≠ '.' ∧ c ≠ 'e' ∧ c ≠ 'E' ∧ c ≠ '-' ∧ c ≠ '+' := by
  simp only [isStop, isSpace, Bool.or_eq_true, decide_eq_true_eq] at h
  rcases h with (((((rfl | rfl) | rfl) | rfl) | rfl) | rfl) | rfl <;> decide

section Appending

variable {s rest : List Char} (hrest : Stops rest)
include hrest

theorem scanDigits_append (s : List Char) :
    scanDigits (s ++ rest) = ((scanDigits s).1, (scanDigits s).2 ++ rest) := by
  induction s with
  | nil =>
    cases rest with
    | nil => rfl
    | cons c rest =>
      have hdigit := (not_isDigit_of_isStop (hrest c rfl)).1
      simp [scanDigits, hdigit]
  | cons c s ih =>
    simp only [scanDigits, Prod.mk.injEq] at ih
    cases hc : c.isDigit <;> simp [scanDigits, hc, ih]

theorem scanInteger_append {digits t : List Char} (h : scanInteger s = some (digits, t)) :
    scanInteger (s ++ rest) = some (digits, t ++ rest) := by
  cases s with
  | nil => cases h
  | cons c s =>
    rw [scanInteger] at h
    rw [List.cons_append, scanInteger]
    split_ifs at h ⊢ with hzero hdigit
    · cases h
      rfl
    · rw [← List.cons_append, scanDigits_append hrest]
      rw [Option.some.injEq] at h
      rw [h]

theorem scanFraction_append (s : List Char) :
    scanFraction (s ++ rest) = ((scanFraction s).1, (scanFraction s).2 ++ rest) := by
  cases s with
  | nil =>
    cases rest with
    | nil => rfl
    | cons c rest =>
      have hdot := (not_isDigit_of_isStop (hrest c rfl)).2.2.1
      simp [scanFraction, hdot]
  | cons c s =>
    rw [List.cons_append, scanFraction, scanFraction, scanDigits_append hrest]
    split <;> rfl

theorem scanSign_append (s : List Char) :
    scanSign (s ++ rest) = ((scanSign s).1, (scanSign s).2 ++ rest) := by
  cases s with
  | nil =>
    cases rest with
    | nil => rfl
    | cons c rest =>
      obtain ⟨-, -, -, -, -, hminus, hplus⟩ := not_isDigit_of_isStop (hrest c rfl)
      simp [scanSign, hminus, hplus]
  | cons c s =>
    rw [List.cons_append, scanSign, scanSign]
    split_ifs <;> rfl

theorem scanExponent_append (s : List Char) :
    scanExponent (s ++ rest) = ((scanExponent s).1, (scanExponent s).2 ++ rest) := by
  cases s with
  | nil =>
    cases rest with
    | nil => rfl
    | cons c rest =>
      obtain ⟨-, -, -, he, hE, -, -⟩ := not_isDigit_of_isStop (hrest c rfl)
      simp [scanExponent, he, hE]
  | cons c s =>
    simp only [List.cons_append, scanExponent, scanSign_append hrest, scanDigits_append hrest]
    split <;> rfl

/-- **A number that stands alone is scanned the same before what ends it.** -/
theorem scanNumber_append {value : Json} (h : scanNumber s = some (value, [])) :
    scanNumber (s ++ rest) = some (value, rest) := by
  have hminus : s ≠ [] → scanMinus (s ++ rest) = ((scanMinus s).1, (scanMinus s).2 ++ rest) := by
    intro hne
    cases s with
    | nil => exact absurd rfl hne
    | cons c s =>
      rw [List.cons_append, scanMinus, scanMinus]
      split_ifs <;> rfl
  have hne : s ≠ [] := by
    rintro rfl
    cases h
  unfold scanNumber at h ⊢
  rw [hminus hne]
  cases hinteger : scanInteger (scanMinus s).2 with
  | none =>
    rw [hinteger] at h
    cases h
  | some p =>
    obtain ⟨digits, t⟩ := p
    rw [hinteger] at h
    simp only [Option.some.injEq, Prod.mk.injEq] at h
    rw [scanInteger_append hrest hinteger]
    simp only [scanFraction_append hrest, scanExponent_append hrest, h.1, h.2, List.nil_append]

end Appending

/-! ### An integer comes back -/

/-- `int.__repr__` -/
def intText (n : ℤ) : List Char :=
  if n < 0 then '-' :: Nat.toDigits 10 n.natAbs else Nat.toDigits 10 n.natAbs

theorem isDigit_of_mem_decimal {n : ℕ} {c : Char} (h : c ∈ Nat.toDigits 10 n) :
    c.isDigit = true :=
  Nat.isDigit_of_mem_toDigits (by decide) (by decide) h

/-- The digits of a number begin with a zero only if there is nothing else. -/
theorem head_decimal {n : ℕ} (hn : n ≠ 0) : (Nat.toDigits 10 n).head? ≠ some '0' := by
  induction n using Nat.strong_induction_on with
  | _ n ih =>
    rcases Nat.lt_or_ge n 10 with hlt | hge
    · have hall : ∀ m < 10, m ≠ 0 → (Nat.toDigits 10 m).head? ≠ some '0' := by decide
      exact hall n hlt hn
    · rw [Nat.toDigits_of_base_le (by decide) hge, List.head?_append_of_ne_nil _ Nat.toDigits_ne_nil]
      exact ih (n / 10) (by omega) (by omega)

theorem scanInteger_decimal (n : ℕ) :
    scanInteger (Nat.toDigits 10 n) = some (Nat.toDigits 10 n, []) := by
  by_cases hn : n = 0
  · subst hn
    rfl
  · have hhead := head_decimal hn
    have hdigits : ∀ c ∈ Nat.toDigits 10 n, c.isDigit = true := fun c => isDigit_of_mem_decimal
    cases htext : Nat.toDigits 10 n with
    | nil => exact absurd htext Nat.toDigits_ne_nil
    | cons c s =>
      rw [htext] at hhead hdigits
      have hzero : c ≠ '0' := fun he => hhead (congrArg some he)
      rw [scanInteger, if_neg hzero, if_pos (hdigits c List.mem_cons_self), scanDigits,
        List.takeWhile_eq_self_iff.mpr hdigits, List.dropWhile_eq_nil_iff.mpr hdigits]

theorem scanMinus_intText (n : ℤ) :
    scanMinus (intText n) = (decide (n < 0), Nat.toDigits 10 n.natAbs) := by
  unfold intText
  split_ifs with hneg
  · rw [scanMinus, if_pos rfl, decide_eq_true hneg]
  · cases htext : Nat.toDigits 10 n.natAbs with
    | nil => exact absurd htext Nat.toDigits_ne_nil
    | cons c s =>
      have hdigit : c.isDigit = true :=
        isDigit_of_mem_decimal (by rw [htext]; exact List.mem_cons_self)
      have hminus : c ≠ '-' := fun he => by
        rw [he] at hdigit
        cases hdigit
      rw [scanMinus, if_neg hminus, decide_eq_false hneg]

/-- **An integer comes back.** -/
theorem scanNumber_intText (n : ℤ) : scanNumber (intText n) = some (.int n, []) := by
  have hvalue : (if n < 0 then -(n.natAbs : ℤ) else n.natAbs) = n := by
    split_ifs <;> omega
  rw [scanNumber, scanMinus_intText]
  simp only [scanInteger_decimal, scanFraction, scanExponent, numberOf, and_self, if_true,
    Nat.ofDigitChars_ten_toDigits, decide_eq_true_eq, hvalue]

end Json

end Python
