import UrithiBidz.Contract.Env
import UrithiBidz.Library.Numeral

/-!
# Values in the indexer

The indexer is written in a dynamic language, and what it reads from an event is whatever
value came out of the ledger. `UrithiBidz.Native` is such a value. Reading a field of
something that has no fields gives `undefined`, reading one of nothing is an error, and a
default stands in for every value that is not truthy; all of this happens when an event
does not look the way a handler expects, so none of it is left out.

Two things a reader may not expect: an integer of 64 or more bits arrives as a `bigint`,
which cannot be written as JSON (`UrithiBidz.Native.jsonable`), and an auction id is rounded
to what a double can hold (`UrithiBidz.jsNumber`).
-/

namespace UrithiBidz

/-- A value of the indexer's language. The numbers are the integral ones, since no others
come out of an event. -/
inductive Native
  | undefined
  | null
  | bool (b : Bool)
  | number (n : ℤ)
  | bigint (n : ℤ)
  | string (s : String)
  | array (items : List Native)
  | object (fields : List (String × Native))

namespace Native

/-- Neither of the two nothings. -/
def isNullish : Native → Bool
  | .undefined => true
  | .null => true
  | _ => false

/-- The value counts as true. -/
def truthy : Native → Bool
  | .undefined => false
  | .null => false
  | .bool b => b
  | .number n => n ≠ 0
  | .bigint n => n ≠ 0
  | .string s => s ≠ ""
  | .array _ => true
  | .object _ => true

/-- `x || y`. -/
def orElse (x y : Native) : Native := if x.truthy then x else y

mutual

/-- `String(x)`. -/
def text : Native → String
  | .undefined => "undefined"
  | .null => "null"
  | .bool b => if b then "true" else "false"
  | .number n => toString n
  | .bigint n => toString n
  | .string s => s
  | .array items => joined items
  | .object _ => "[object Object]"

/-- The items of an array, separated by commas. -/
def joined : List Native → String
  | [] => ""
  | [x] => if x.isNullish then "" else text x
  | x :: xs => (if x.isNullish then "" else text x) ++ "," ++ joined xs

end

mutual

/-- The value can be written as JSON: there is no `bigint` in it. -/
def jsonable : Native → Bool
  | .bigint _ => false
  | .array items => jsonableItems items
  | .object fields => jsonableFields fields
  | _ => true

/-- All items can be written. -/
def jsonableItems : List Native → Bool
  | [] => true
  | x :: xs => jsonable x && jsonableItems xs

/-- All fields can be written. -/
def jsonableFields : List (String × Native) → Bool
  | [] => true
  | (_, x) :: xs => jsonable x && jsonableFields xs

end

/-- Read a field by its name. No name that is read here is one of an array or a text. -/
def field (x : Native) (name : String) : Except String Native :=
  match x with
  | .undefined => .error ("Cannot read properties of undefined (reading '" ++ name ++ "')")
  | .null => .error ("Cannot read properties of null (reading '" ++ name ++ "')")
  | .object fields => .ok ((fields.lookup name).getD .undefined)
  | _ => .ok .undefined

end Native

/-! ### Numbers -/

/-- The nearest integer that a double can hold: 53 binary digits, ties to even. -/
def roundToDouble (n : ℕ) : ℕ :=
  let unit := 2 ^ (n.log2 - 52)
  let quotient := n / unit
  let rest := n % unit
  let up := unit < 2 * rest ∨ (2 * rest = unit ∧ quotient % 2 = 1)
  (if up then quotient + 1 else quotient) * unit

theorem pow_log2_sub_le {n : ℕ} (hpos : 0 < n) : 2 ^ (n.log2 - 52) ≤ n :=
  calc 2 ^ (n.log2 - 52) ≤ 2 ^ n.log2 := Nat.pow_le_pow_right (by decide) (Nat.sub_le _ _)
    _ ≤ n := Nat.log2_self_le hpos.ne'

/-- **What is positive is not rounded to zero**, and rounding at most doubles it. -/
theorem roundToDouble_bounds {n : ℕ} (hpos : 0 < n) :
    0 < roundToDouble n ∧ roundToDouble n ≤ 2 * n := by
  have hunit := pow_log2_sub_le hpos
  have hunit_pos : 0 < 2 ^ (n.log2 - 52) := Nat.two_pow_pos _
  unfold roundToDouble
  generalize 2 ^ (n.log2 - 52) = unit at hunit hunit_pos
  have hquotient : 0 < n / unit := Nat.div_pos hunit hunit_pos
  have hmul : n / unit * unit ≤ n := Nat.div_mul_le_self n unit
  dsimp only
  split
  · rw [Nat.succ_mul]
    exact ⟨by omega, by omega⟩
  · exact ⟨Nat.mul_pos hquotient hunit_pos, by omega⟩

/-- `Number(n)`, for an integer. -/
def jsNumber (n : ℤ) : ℤ := if 0 ≤ n then roundToDouble n.toNat else -roundToDouble n.natAbs

/-- `parseInt(text, 10)`: the leading digits, behind white space and a sign. -/
def parseInt10 (text : List Char) : Option ℤ :=
  let text := text.dropWhile (·.isWhitespace)
  let (sign, text) : ℤ × List Char := match text with
    | '-' :: rest => (-1, rest)
    | '+' :: rest => (1, rest)
    | rest => (1, rest)
  let digits := text.takeWhile (·.isDigit)
  if digits = [] then none
  else some (jsNumber (sign * (digits.foldl (fun n c => 10 * n + (c.toNat - '0'.toNat)) 0 : ℕ)))

/-- The auction id in a topic, if there is a number in it (`extractTopicValue`). An object is
spelled as an address or as JSON, and neither starts with a digit. -/
def auctionIdOf : Native → Option ℤ
  | .string s => parseInt10 s.toList
  | .number n => some (jsNumber n)
  | .bigint n => some (jsNumber n)
  | .undefined => some 0
  | .null => some 0
  | .bool _ => none
  | .array _ => none
  | .object _ => none

/-- The last integer up to which a double holds them all, and what becomes of the next but
one. -/
example : jsNumber 9007199254740991 = 9007199254740991 ∧
    jsNumber 9007199254740993 = 9007199254740992 := by decide

/-- Leading digits are read, and nothing else is a number. -/
example : parseInt10 "12x".toList = some 12 ∧ parseInt10 "GAAA".toList = none := by decide

/-! ### Texts -/

/-- White space and line ends, as they are trimmed. -/
def isTrimmed (c : Char) : Bool :=
  c.val ∈ [0x9, 0xA, 0xB, 0xC, 0xD, 0x20, 0xA0, 0x1680, 0x2028, 0x2029, 0x202F, 0x205F, 0x3000,
    0xFEFF] || (0x2000 ≤ c.val && c.val ≤ 0x200A)

/-- `text.trim()` -/
def trim (text : List Char) : List Char := (text.dropWhile isTrimmed).rdropWhile isTrimmed

theorem trim_of_kept {text : List Char} (h : ∀ c ∈ text, isTrimmed c = false) :
    trim text = text := by
  have hfront : text.dropWhile isTrimmed = text := by
    rcases text with _ | ⟨c, rest⟩
    · rfl
    · rw [List.dropWhile_cons_of_neg]
      rw [h c List.mem_cons_self]
      exact Bool.false_ne_true
  rw [trim, hfront, List.rdropWhile_eq_self_iff]
  intro hne
  rw [h _ (List.getLast_mem hne)]
  exact Bool.false_ne_true

/-- `BigInt(text)`: a sign is for decimal digits only, and nothing at all is zero. -/
def bigInt (text : List Char) : Option ℤ :=
  match trim text with
  | [] => some 0
  | '0' :: 'x' :: digits | '0' :: 'X' :: digits => (Numeral.read 16 digits).map Int.ofNat
  | '0' :: 'o' :: digits | '0' :: 'O' :: digits => (Numeral.read 8 digits).map Int.ofNat
  | '0' :: 'b' :: digits | '0' :: 'B' :: digits => (Numeral.read 2 digits).map Int.ofNat
  | '+' :: digits => (Numeral.read 10 digits).map Int.ofNat
  | '-' :: digits => (Numeral.read 10 digits).map fun n => -Int.ofNat n
  | digits => (Numeral.read 10 digits).map Int.ofNat

/-- **Decimal digits are read as what they are.** -/
theorem bigInt_of_digits {text : List Char} (hne : text ≠ []) (h : Numeral.Digits text) :
    bigInt text = some (Nat.ofDigitChars 10 text 0 : ℕ) := by
  have hdigit : ∀ {c : Char}, c ∈ text → c.isDigit = true := fun hc => h _ hc
  have hkept : ∀ c ∈ text, isTrimmed c = false := fun c hc =>
    Numeral.forall_digit (P := fun c => isTrimmed c = false) (by decide) (h c hc)
  rw [bigInt, trim_of_kept hkept]
  split
  · exact absurd rfl hne
  -- a letter or a sign is no digit
  iterate 6 exact absurd (hdigit (List.mem_cons_of_mem _ List.mem_cons_self)) (by decide)
  iterate 2 exact absurd (hdigit List.mem_cons_self) (by decide)
  · rw [Numeral.read_ten hne h]
    rfl

/-- `BigInt(x)`, for a text or an integer. -/
def Native.bigInt : Native → Option ℤ
  | .string s => UrithiBidz.bigInt s.toList
  | .number n => some n
  | .bigint n => some n
  | _ => none

/-! ### Values from the ledger -/

variable {Address : Type}

/-- `scValToNative`, given how addresses are spelled. -/
def scValToNative (text : Address → String) : ScVal Address → Native
  | .symbol s => .string s
  | .u64 n => .bigint n.val
  | .i128 n => .bigint n.val
  | .address a => .string (text a)
  | .string s => .string s

/-- The payload of an event. -/
def payloadToNative (text : Address → String) : ScData Address → Native
  | .void => .null
  | .tuple values => .array (values.map (scValToNative text))

end UrithiBidz
