import UrithiBidz.Indexer.Native

/-!
# Amounts on the web page

An amount of tokens is kept in stroops, of which there are ten millions to a token, and the page
prints it as a decimal numeral (`formatStroops` in `stellar.ts`). Nothing is rounded: the numeral
is canonical and worth exactly the amount, however large it is
(`UrithiBidz.formatStroops_exact`), so that no two amounts look the same.
-/

namespace UrithiBidz

/-- `n.toString()` -/
def decimalText (n : ℤ) : List Char :=
  if n < 0 then '-' :: Nat.toDigits 10 n.natAbs else Nat.toDigits 10 n.natAbs

/-- Print an amount, if it can be read. Division rounds towards zero. -/
def formatStroops (amount : Native) : Option (List Char) :=
  amount.bigInt.map fun num =>
    let divisor : ℤ := 10000000
    let whole := num.tdiv divisor
    let remainder := num.tmod divisor
    let remainderStr := (decimalText remainder).leftpad 7 '0'
    let trimmed := remainderStr.rdropWhile (· = '0')
    if trimmed ≠ [] then decimalText whole ++ '.' :: trimmed else decimalText whole

/-- What the page says that the next bid has to be, from the fields of the auction. An increment
that is missing or empty is taken to be ten stroops. -/
def minimumNextBid (highestBid : String) (minIncrement : Option String) (reservePrice : String) :
    Option (List Char) :=
  if highestBid ≠ "" ∧ highestBid ≠ "0" then
    (bigInt highestBid.toList).bind fun highest =>
      let increment := ((minIncrement.map Native.string).getD .undefined).orElse (.string "10")
      increment.bigInt.bind fun increment =>
        formatStroops (.string (String.ofList (decimalText (highest + increment))))
  else formatStroops (.string reservePrice)

/-- The numerals, with and without a fraction, and one far beyond what a double can hold. -/
example : formatStroops (.number 500000000) = some "50".toList ∧
    formatStroops (.string "10500000") = some "1.05".toList ∧
    formatStroops (.string "170141183460469231731687303715884105727") =
      some "17014118346046923173168730371588.4105727".toList := by decide +kernel

/-! ### Exactly -/

/-- **An amount**: an integer, or a text of digits, that stands for a number of stroops. -/
inductive IsAmount : Native → ℕ → Prop
  | number {n : ℕ} : IsAmount (.number n) n
  | string {s : String} (hne : s.toList ≠ []) (hdigits : Numeral.Digits s.toList) :
      IsAmount (.string s) (Nat.ofDigitChars 10 s.toList 0)

theorem IsAmount.bigInt {amount : Native} {n : ℕ} (h : IsAmount amount n) :
    amount.bigInt = some (n : ℤ) := by
  cases h with
  | number => rfl
  | string hne hdigits => exact bigInt_of_digits hne hdigits

theorem IsAmount.ne_empty {s : String} {n : ℕ} (h : IsAmount (.string s) n) : s ≠ "" := by
  cases h with
  | string hne => exact fun hempty => hne (by rw [hempty]; rfl)

theorem decimalText_natCast (n : ℕ) : decimalText n = Nat.toDigits 10 n := by
  rw [decimalText, if_neg (by omega), Int.natAbs_natCast]

/-- The digits of the remainder, as they are printed. -/
def fractionDigits (n : ℕ) : List Char :=
  ((Nat.toDigits 10 (n % 10000000)).leftpad 7 '0').rdropWhile (· = '0')

/-- **What is printed**: the whole tokens, and the digits of the rest. -/
theorem formatStroops_eq {amount : Native} {n : ℕ} (h : IsAmount amount n) :
    formatStroops amount = some (Numeral.write (n / 10000000) (fractionDigits n)) := by
  have hdiv : (n : ℤ).tdiv 10000000 = (n / 10000000 : ℕ) := by
    rw [Int.tdiv_eq_ediv_of_nonneg (by omega)]
    rfl
  have hmod : (n : ℤ).tmod 10000000 = (n % 10000000 : ℕ) := by
    rw [Int.tmod_eq_emod_of_nonneg (by omega)]
    rfl
  rw [formatStroops, h.bigInt, Option.map_some]
  simp only [hdiv, hmod, decimalText_natCast, Numeral.write, fractionDigits]
  congr

theorem digits_fractionDigits (n : ℕ) : Numeral.Digits (fractionDigits n) :=
  ((Numeral.digits_toDigits _).leftpad 7).of_subset (List.rdropWhile_prefix _ _).subset

theorem getLast?_fractionDigits (n : ℕ) : (fractionDigits n).getLast? ≠ some '0' := by
  intro hlast
  have hne : fractionDigits n ≠ [] := by
    intro hnil
    rw [hnil] at hlast
    cases hlast
  rw [List.getLast?_eq_some_getLast hne] at hlast
  exact List.rdropWhile_last_not _ _ hne (decide_eq_true (Option.some.inj hlast))

theorem length_leftpad_remainder (n : ℕ) :
    ((Nat.toDigits 10 (n % 10000000)).leftpad 7 '0').length = 7 := by
  have hle : (Nat.toDigits 10 (n % 10000000)).length ≤ 7 :=
    (Nat.length_toDigits_le_iff (by decide) (by decide)).mpr (Nat.mod_lt n (by decide))
  rw [List.length_leftpad]
  omega

theorem length_fractionDigits (n : ℕ) : (fractionDigits n).length ≤ 7 :=
  (List.rdropWhile_prefix _ _).length_le.trans (length_leftpad_remainder n).le

/-- **The fraction is worth the remainder.** -/
theorem fractionDigits_value (n : ℕ) : 10 ^ (7 - (fractionDigits n).length) *
    Nat.ofDigitChars 10 (fractionDigits n) 0 = n % 10000000 := by
  have hstrip := Numeral.ofDigitChars_rdropWhile ((Nat.toDigits 10 (n % 10000000)).leftpad 7 '0')
  rw [length_leftpad_remainder, Numeral.ofDigitChars_leftpad, Nat.ofDigitChars_ten_toDigits]
    at hstrip
  exact hstrip

/-- **The numeral is worth the amount.** -/
theorem value_formatStroops (n : ℕ) :
    Numeral.value (Numeral.write (n / 10000000) (fractionDigits n)) * 10 ^ 7 = n := by
  have hfraction : ((Nat.ofDigitChars 10 (fractionDigits n) 0 : ℕ) : ℚ) /
      10 ^ (fractionDigits n).length * 10 ^ 7 = (n % 10000000 : ℕ) := by
    have hpow : (10 : ℚ) ^ 7 =
        10 ^ (7 - (fractionDigits n).length) * 10 ^ (fractionDigits n).length := by
      rw [← pow_add, Nat.sub_add_cancel (length_fractionDigits n)]
    rw [hpow, ← fractionDigits_value n]
    push_cast
    field_simp
  have hsplit : (n : ℚ) = 10000000 * (n / 10000000 : ℕ) + (n % 10000000 : ℕ) := by
    exact_mod_cast (Nat.div_add_mod n 10000000).symm
  rw [Numeral.value_write, add_mul, hfraction]
  linarith only [hsplit]

theorem canonical_formatStroops (n : ℕ) :
    Numeral.Canonical (Numeral.write (n / 10000000) (fractionDigits n)) :=
  Numeral.canonical_write _ (digits_fractionDigits n) (getLast?_fractionDigits n)

/-- **Amounts print exactly**: the numeral is canonical, has at most seven digits behind the point
and is worth the amount, and no other amount prints like this. -/
theorem formatStroops_exact {amount : Native} {n : ℕ} (h : IsAmount amount n) :
    ∃ text, formatStroops amount = some text ∧ Numeral.Canonical text ∧
      (Numeral.fraction text).length ≤ 7 ∧ Numeral.value text * 10 ^ 7 = n ∧
        ∀ amount' n', IsAmount amount' n' → formatStroops amount' = some text → n' = n := by
  refine ⟨_, formatStroops_eq h, canonical_formatStroops n, ?_, value_formatStroops n,
    fun amount' n' h' hsame => ?_⟩
  · rw [Numeral.fraction_write]
    exact length_fractionDigits n
  · rw [formatStroops_eq h'] at hsame
    have hvalue := value_formatStroops n'
    rw [Option.some.inj hsame, value_formatStroops n] at hvalue
    exact_mod_cast hvalue.symm

/-- The theorem at a remainder with zeros on both sides. -/
theorem formatStroops_exact_padded : IsAmount (.number 10500) 10500 ∧
    ∃ text, formatStroops (.number 10500) = some text ∧ Numeral.Canonical text ∧
      (Numeral.fraction text).length ≤ 7 ∧ Numeral.value text * 10 ^ 7 = (10500 : ℕ) ∧
        ∀ amount' n', IsAmount amount' n' → formatStroops amount' = some text → n' = 10500 :=
  ⟨.number, formatStroops_exact .number⟩

/-- **The next bid is printed exactly** once there is one: the highest bid and the increment. -/
theorem minimumNextBid_exact {highestBid minIncrement : String} (reservePrice : String) {n k : ℕ}
    (hhighest : IsAmount (.string highestBid) n) (hzero : highestBid ≠ "0")
    (hincrement : IsAmount (.string minIncrement) k) :
    ∃ text, minimumNextBid highestBid (some minIncrement) reservePrice = some text ∧
      Numeral.Canonical text ∧ Numeral.value text * 10 ^ 7 = (n + k : ℕ) := by
  have hsum : IsAmount (.string (String.ofList (decimalText ((n : ℤ) + k)))) (n + k) := by
    have hdigits : (String.ofList (decimalText ((n : ℤ) + k))).toList =
        Nat.toDigits 10 (n + k) := by
      rw [String.toList_ofList, ← Nat.cast_add, decimalText_natCast]
    have hvalue : Nat.ofDigitChars 10 (String.ofList (decimalText ((n : ℤ) + k))).toList 0 =
        n + k := by
      rw [hdigits, Nat.ofDigitChars_ten_toDigits]
    rw [← hvalue]
    refine .string ?_ ?_ <;> rw [hdigits]
    · exact Nat.toDigits_ne_nil
    · exact Numeral.digits_toDigits _
  refine ⟨_, ?_, canonical_formatStroops (n + k), value_formatStroops (n + k)⟩
  have hfirst : (bigInt highestBid.toList) = some (n : ℤ) := hhighest.bigInt
  have hsecond : (Native.orElse (.string minIncrement) (.string "10")).bigInt = some (k : ℤ) := by
    have htruthy : (Native.string minIncrement).truthy = true :=
      decide_eq_true hincrement.ne_empty
    rw [Native.orElse, if_pos htruthy]
    exact hincrement.bigInt
  rw [minimumNextBid, if_pos ⟨hhighest.ne_empty, hzero⟩, hfirst, Option.bind_some]
  simp only [Option.map_some, Option.getD_some, hsecond, Option.bind_some]
  exact formatStroops_eq hsum

end UrithiBidz
