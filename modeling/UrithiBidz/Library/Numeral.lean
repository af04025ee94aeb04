import Mathlib.Algebra.Order.Field.Rat
import Mathlib.Data.List.DropRight
import Mathlib.Tactic.FieldSimp
import Mathlib.Tactic.IntervalCases
import Mathlib.Tactic.Linarith

/-!
# Numerals

Numbers as they are written: texts of digits in some base, and decimal numerals with a
point. `Numeral.read` reads a text of digits if it is one, and `Numeral.value` is what a
decimal numeral is worth. A numeral is canonical (`Numeral.Canonical`) if it has no zero
and no point that could be left out.

A decimal numeral is put together from a whole number and the digits of a fraction by
`Numeral.write`. What is written this way is canonical, if no zero is at the end of the
fraction (`Numeral.canonical_write`), and its value is the obvious one
(`Numeral.value_write`).
-/

namespace Numeral

/-! ### Texts of digits -/

/-- The value of a digit, in a base up to 36. -/
def digit (base : ℕ) (c : Char) : Option ℕ :=
  let value :=
    if '0' ≤ c ∧ c ≤ '9' then some (c.toNat - '0'.toNat)
    else if 'a' ≤ c ∧ c ≤ 'z' then some (c.toNat - 'a'.toNat + 10)
    else if 'A' ≤ c ∧ c ≤ 'Z' then some (c.toNat - 'A'.toNat + 10)
    else none
  value.filter (· < base)

/-- Read digits, behind a number that has been read. -/
def readFrom (base : ℕ) : ℕ → List Char → Option ℕ
  | n, [] => some n
  | n, c :: text => (digit base c).bind fun d => readFrom base (base * n + d) text

/-- Read a text of digits: there is at least one, and there is nothing else. -/
def read (base : ℕ) (text : List Char) : Option ℕ :=
  if text = [] then none else readFrom base 0 text

/-- All characters are decimal digits. -/
def Digits (text : List Char) : Prop := ∀ c ∈ text, c.isDigit = true

theorem exists_digitChar {c : Char} (h : c.isDigit = true) : ∃ n < 10, c = Nat.digitChar n := by
  rw [Char.isDigit, Bool.and_eq_true, decide_eq_true_eq, decide_eq_true_eq] at h
  have hlow : 48 ≤ c.toNat := h.1
  have hhigh : c.toNat ≤ 57 := h.2
  refine ⟨c.toNat - 48, by omega, ?_⟩
  rw [← Char.ofNat_toNat c]
  generalize c.toNat = n at hlow hhigh
  interval_cases n <;> rfl

/-- **What holds of the ten digits** holds of every character that is one. -/
theorem forall_digit {P : Char → Prop} (h : ∀ n < 10, P (Nat.digitChar n)) {c : Char}
    (hc : c.isDigit = true) : P c := by
  obtain ⟨n, hn, rfl⟩ := exists_digitChar hc
  exact h n hn

/-- A hexadecimal digit, in small letters. -/
def IsHexDigit (c : Char) : Prop := c.isDigit = true ∨ ('a' ≤ c ∧ c ≤ 'f')

instance (c : Char) : Decidable (IsHexDigit c) :=
  inferInstanceAs (Decidable (c.isDigit = true ∨ ('a' ≤ c ∧ c ≤ 'f')))

theorem IsHexDigit.exists_eq {c : Char} (h : IsHexDigit c) : ∃ n < 16, c = Nat.digitChar n := by
  rcases h with hdecimal | ⟨hlow, hhigh⟩
  · obtain ⟨n, hn, heq⟩ := exists_digitChar hdecimal
    exact ⟨n, by omega, heq⟩
  · have hlow' : 97 ≤ c.toNat := hlow
    have hhigh' : c.toNat ≤ 102 := hhigh
    refine ⟨c.toNat - 87, by omega, ?_⟩
    rw [← Char.ofNat_toNat c]
    generalize c.toNat = n at hlow' hhigh'
    interval_cases n <;> rfl

theorem digit_ten {c : Char} (h : c.isDigit = true) : digit 10 c = some (c.toNat - '0'.toNat) :=
  forall_digit (P := fun c => digit 10 c = some (c.toNat - '0'.toNat)) (by decide) h

theorem readFrom_ten {text : List Char} (h : Digits text) (n : ℕ) :
    readFrom 10 n text = some (Nat.ofDigitChars 10 text n) := by
  induction text generalizing n with
  | nil => rw [readFrom, Nat.ofDigitChars_nil]
  | cons c text ih =>
    have hrest : Digits text := fun d hd => h d (List.mem_cons_of_mem c hd)
    rw [readFrom, digit_ten (h c List.mem_cons_self), Option.bind_some, ih hrest,
      Nat.ofDigitChars_cons]

/-- **Decimal digits are read.** -/
theorem read_ten {text : List Char} (hne : text ≠ []) (h : Digits text) :
    read 10 text = some (Nat.ofDigitChars 10 text 0) := by
  rw [read, if_neg hne, readFrom_ten h]

theorem ofDigitChars_append_zeros (text : List Char) (k : ℕ) :
    Nat.ofDigitChars 10 (text ++ List.replicate k '0') 0 =
      10 ^ k * Nat.ofDigitChars 10 text 0 := by
  rw [Nat.ofDigitChars_append, Nat.ofDigitChars_replicate_zero]

theorem ofDigitChars_leftpad (text : List Char) (k : ℕ) :
    Nat.ofDigitChars 10 (text.leftpad k '0') 0 = Nat.ofDigitChars 10 text 0 := by
  rw [List.leftpad, Nat.ofDigitChars_append, Nat.ofDigitChars_replicate_zero, Nat.mul_zero]

/-- **Zeros at the end may be stripped**, if they are accounted for. -/
theorem ofDigitChars_rdropWhile (text : List Char) :
    10 ^ (text.length - (text.rdropWhile (· = '0')).length) *
      Nat.ofDigitChars 10 (text.rdropWhile (· = '0')) 0 = Nat.ofDigitChars 10 text 0 := by
  have hsplit : text.rdropWhile (· = '0') ++ text.rtakeWhile (· = '0') = text :=
    List.rdropWhile_append_rtakeWhile ..
  have hzeros : text.rtakeWhile (· = '0') =
      List.replicate (text.rtakeWhile (· = '0')).length '0' :=
    List.eq_replicate_of_mem fun c hc =>
      of_decide_eq_true (List.mem_rtakeWhile_imp (p := fun c => decide (c = '0')) hc)
  have hlength : text.length - (text.rdropWhile (· = '0')).length =
      (text.rtakeWhile (· = '0')).length := by
    have hsum := congrArg List.length hsplit
    rw [List.length_append] at hsum
    omega
  rw [hlength, ← ofDigitChars_append_zeros, ← hzeros, hsplit]

theorem digits_toDigits (n : ℕ) : Digits (Nat.toDigits 10 n) := fun c hc =>
  Nat.isDigit_of_mem_toDigits (by decide) (by decide) hc

theorem Digits.of_subset {text text' : List Char} (h : Digits text) (hsub : text' ⊆ text) :
    Digits text' := fun c hc => h c (hsub hc)

theorem Digits.leftpad {text : List Char} (h : Digits text) (k : ℕ) :
    Digits (text.leftpad k '0') := by
  intro c hc
  rcases List.mem_append.mp hc with hc | hc
  · rw [List.eq_of_mem_replicate hc]
    decide
  · exact h c hc

/-- **A number does not begin with a zero**, unless it is one. -/
theorem head?_toDigits {n : ℕ} (h : n ≠ 0) : (Nat.toDigits 10 n).head? ≠ some '0' := by
  induction n using Nat.strong_induction_on with
  | _ n ih =>
    by_cases hlt : n < 10
    · rw [Nat.toDigits_of_lt_base hlt]
      interval_cases n <;> first | exact absurd rfl h | decide
    · rw [Nat.toDigits_of_base_le (by decide) (not_lt.mp hlt),
        List.head?_append_of_ne_nil _ Nat.toDigits_ne_nil]
      exact ih (n / 10) (by omega) (by omega)

/-! ### Decimal numerals -/

/-- What is in front of the point. -/
def whole (text : List Char) : List Char := text.takeWhile (· ≠ '.')

/-- What is behind the point. -/
def fraction (text : List Char) : List Char := (text.dropWhile (· ≠ '.')).tail

/-- What a numeral is worth. -/
def value (text : List Char) : ℚ :=
  Nat.ofDigitChars 10 (whole text) 0 +
    Nat.ofDigitChars 10 (fraction text) 0 / 10 ^ (fraction text).length

/-- **A canonical numeral**: digits, perhaps with a point and digits behind it, and no zero and no
point that could be left out. -/
structure Canonical (text : List Char) : Prop where
  whole_ne_nil : whole text ≠ []
  whole_digits : Digits (whole text)
  no_leading_zero : whole text = ['0'] ∨ (whole text).head? ≠ some '0'
  fraction_digits : Digits (fraction text)
  no_trailing_point : text.getLast? ≠ some '.'
  no_trailing_zero : (fraction text).getLast? ≠ some '0'

/-- A numeral from its parts. The point is written only if there is something behind it. -/
def write (n : ℕ) (digits : List Char) : List Char :=
  if digits ≠ [] then Nat.toDigits 10 n ++ '.' :: digits else Nat.toDigits 10 n

theorem ne_point {c : Char} (h : c.isDigit = true) : decide (c ≠ '.') = true :=
  forall_digit (P := fun c => decide (c ≠ '.') = true) (by decide) h

@[simp] theorem whole_write (n : ℕ) (digits : List Char) :
    whole (write n digits) = Nat.toDigits 10 n := by
  have hall : ∀ c ∈ Nat.toDigits 10 n, decide (c ≠ '.') = true := fun c hc =>
    ne_point (digits_toDigits n c hc)
  unfold write whole
  split
  · rw [List.takeWhile_append_of_pos hall, List.takeWhile_cons_of_neg (by decide),
      List.append_nil]
  · exact List.takeWhile_eq_self_iff.mpr hall

@[simp] theorem fraction_write (n : ℕ) (digits : List Char) :
    fraction (write n digits) = digits := by
  have hall : ∀ c ∈ Nat.toDigits 10 n, decide (c ≠ '.') = true := fun c hc =>
    ne_point (digits_toDigits n c hc)
  unfold write fraction
  split
  · rw [List.dropWhile_append_of_pos hall, List.dropWhile_cons_of_neg (by decide)]
    rfl
  · next hnil =>
    rw [List.dropWhile_eq_nil_iff.mpr hall, not_not.mp hnil]
    rfl

/-- **What is written is worth what it is written for.** -/
theorem value_write (n : ℕ) (digits : List Char) : value (write n digits) =
    n + Nat.ofDigitChars 10 digits 0 / 10 ^ digits.length := by
  rw [value, whole_write, fraction_write, Nat.ofDigitChars_ten_toDigits]

/-- **What is written is canonical**, if the fraction has no zero at its end. -/
theorem canonical_write (n : ℕ) {digits : List Char} (h : Digits digits)
    (hlast : digits.getLast? ≠ some '0') : Canonical (write n digits) where
  whole_ne_nil := by
    rw [whole_write]
    exact Nat.toDigits_ne_nil
  whole_digits := by
    rw [whole_write]
    exact digits_toDigits n
  no_leading_zero := by
    rw [whole_write]
    by_cases hn : n = 0
    · rw [hn]
      exact Or.inl rfl
    · exact Or.inr (head?_toDigits hn)
  fraction_digits := by
    rw [fraction_write]
    exact h
  no_trailing_point := by
    -- digits do not end in a point
    have hpoint : ∀ {l : List Char}, Digits l → l.getLast? ≠ some '.' := fun hl hlast' =>
      absurd (hl '.' (List.mem_of_getLast? hlast')) (by decide)
    unfold write
    split
    · next hne =>
      rw [List.append_cons, List.getLast?_append_of_ne_nil _ hne]
      exact hpoint h
    · exact hpoint (digits_toDigits n)
  no_trailing_zero := by
    rw [fraction_write]
    exact hlast

end Numeral
