import UrithiBidz.Indexer.Native
import UrithiBidz.Library.Schema

/-!
# Schemas of the requests

A request to the backend is validated before a route sees it (`schemas/auctions.ts`): the id in
its path, and the body that a new auction or a bid comes with. The schemas are spelled out here
field by field, with the messages that they give. Amounts are texts of digits, since they may be
greater than what a double can hold.
-/

namespace UrithiBidz

/-! ### Texts -/

/-- `text.length`, which counts characters outside of the basic plane twice. -/
def textLength (s : String) : ℕ := (s.toList.map fun c => if c.toNat < 0x10000 then 1 else 2).sum

/-- `/^\d+$/` -/
def isDigits (s : String) : Bool := s.toList ≠ [] && s.toList.all (·.isDigit)

/-- `/^G[A-Z2-7]{55}$/`, or another letter in front. -/
def isStellarKey (first : Char) (s : String) : Bool :=
  match s.toList with
  | c :: rest => c = first && rest.length = 55 &&
      rest.all fun c => ('A' ≤ c && c ≤ 'Z') || ('2' ≤ c && c ≤ '7')
  | [] => false

/-- `BigInt(v) > 0n` -/
def isPositiveText (s : String) : Bool := (bigInt s.toList).any (0 < ·)

/-- What digits are worth. -/
def digitsValue (s : String) : ℕ := Nat.ofDigitChars 10 s.toList 0

/-- `Number(text)`, for digits. -/
def numberOfDigits (s : String) : JsNumber :=
  let n := roundToDouble (digitsValue s)
  if n < 2 ^ 1024 then .finite n else .infinite false

/-- `transform(Number)`, behind a text of digits. -/
def toNumber : Json → Json
  | .string s => .number (numberOfDigits s)
  | v => v

theorem isDigits_iff {s : String} :
    isDigits s = true ↔ s.toList ≠ [] ∧ Numeral.Digits s.toList := by
  rw [isDigits, Bool.and_eq_true, decide_eq_true_eq, List.all_eq_true]
  rfl

/-- **Digits are read as what they are worth.** -/
theorem bigInt_of_isDigits {s : String} (h : isDigits s = true) :
    bigInt s.toList = some (digitsValue s : ℤ) :=
  bigInt_of_digits (isDigits_iff.mp h).1 (isDigits_iff.mp h).2

theorem isPositiveText_iff {s : String} (h : isDigits s = true) :
    isPositiveText s = true ↔ 0 < digitsValue s := by
  rw [isPositiveText, bigInt_of_isDigits h, Option.any_some, decide_eq_true_eq]
  exact Int.natCast_pos

/-- **The id of an auction is read as the number that it is rounded to.** -/
theorem numberOfDigits_of_id {s : String} {id : U64} (h : (digitsValue s : ℤ) = id.val) :
    numberOfDigits s = .finite (jsNumber id.val) := by
  have hrange := id.le_hi
  have hround : roundToDouble (digitsValue s) ≤ 2 * digitsValue s := by
    rcases Nat.eq_zero_or_pos (digitsValue s) with hzero | hpos
    · rw [hzero]
      decide
    · exact (roundToDouble_bounds hpos).2
  have hsmall : roundToDouble (digitsValue s) < 2 ^ 65 := by omega
  have hlt := hsmall.trans_le (pow_le_pow_right₀ one_le_two (show 65 ≤ 1024 by decide))
  rw [numberOfDigits, if_pos hlt, ← h, jsNumber, if_pos (Int.natCast_nonneg _), Int.toNat_natCast,
    Int.cast_natCast]

theorem jsNumber_pos_iff {id : U64} : 0 < jsNumber id.val ↔ 0 < id.val := by
  have hnonneg : 0 ≤ id.val := id.lo_le
  rw [jsNumber, if_pos hnonneg, Int.natCast_pos]
  constructor
  · intro h
    by_contra hzero
    rw [show id.val.toNat = 0 by omega] at h
    exact absurd h (by decide)
  · exact fun hpos => (roundToDouble_bounds (by omega)).1

/-- A key is as long as it looks. -/
theorem textLength_of_key {s : String} (h : isStellarKey 'G' s = true) : textLength s = 56 := by
  unfold isStellarKey at h
  split at h
  · next c rest hs =>
    rw [Bool.and_eq_true, Bool.and_eq_true, decide_eq_true_eq, decide_eq_true_eq,
      List.all_eq_true] at h
    obtain ⟨⟨rfl, hlength⟩, hrest⟩ := h
    have hplain : rest.map (fun c => if c.toNat < 0x10000 then 1 else 2) =
        List.replicate 55 1 := by
      rw [← hlength]
      refine List.map_eq_replicate_iff.mpr fun c hc => if_pos ?_
      have hletter := hrest c hc
      rw [Bool.or_eq_true, Bool.and_eq_true, Bool.and_eq_true] at hletter
      rcases hletter with ⟨-, hle⟩ | ⟨-, hle⟩
      · exact lt_of_le_of_lt (show c.toNat ≤ 'Z'.toNat from of_decide_eq_true hle) (by decide)
      · exact lt_of_le_of_lt (show c.toNat ≤ '7'.toNat from of_decide_eq_true hle) (by decide)
    rw [textLength, hs, List.map_cons, hplain]
    decide
  · cases h

/-! ### Schemas -/

open Schema

def auctionFormats : List String := ["english", "dutch", "sealed_bid"]

/-- `z.number().int()` -/
def integer : Schema := Schema.number.check (·.isInteger) none

/-- `z.number().int().positive(message)` -/
def positiveInteger (message : Option String) : Schema :=
  integer.check (·.greater (.finite 0)) message

/-- `z.string().regex(/^\d+$/, message)` -/
def digits (message : Option String) : Schema := Schema.string.text isDigits message

/-- The public key of an account. -/
def stellarAddress (message : Option String) : Schema :=
  ((Schema.string.text (fun s => 56 ≤ textLength s) message).text
    (fun s => textLength s ≤ 56) none).text (isStellarKey 'G') (some "Invalid Stellar public key")

/-- An amount that has to be positive. -/
def positiveAmount (digitsMessage positiveMessage : String) : Schema :=
  (digits (some digitsMessage)).text isPositiveText (some positiveMessage)

/-- A text that must not be empty. -/
def nonEmptyText (message : String) : Schema :=
  Schema.string.text (fun s => 1 ≤ textLength s) (some message)

/-- The id of an auction. -/
def auctionId : Schema :=
  ((digits (some "Auction ID must be a positive integer")).transform toNumber).pipe
    (positiveInteger none)

/-- The path of a request about an auction. -/
def auctionIdSchema : Schema := .object [("id", auctionId)]

/-- The fields of a new auction. -/
def createAuctionFields : List (String × Schema) :=
  [("seller", stellarAddress (some "Seller address must be 56 characters")),
    ("original_creator", stellarAddress none),
    ("format", .oneOf auctionFormats (some "Format must be english, dutch, or sealed_bid")),
    ("item_type", .oneOf ["digital", "physical"] none),
    ("nft_contract", .optional
      (Schema.string.text (isStellarKey 'C') (some "Invalid Stellar contract address"))),
    ("token_id", .optional (positiveInteger none)),
    ("custodian", .optional
      (Schema.string.text (isStellarKey 'G') (some "Invalid custodian address"))),
    ("payment_token", nonEmptyText "Payment token is required"),
    ("reserve_price", positiveAmount "Reserve price must be a positive integer"
      "Reserve price must be positive"),
    ("royalty_bps", (integer.check (·.atLeast 0) none).check (·.atMost 10000)
      (some "Max 100% royalty")),
    ("start_time", positiveInteger (some "Start time must be a future timestamp")),
    ("end_time", positiveInteger (some "End time must be a future timestamp")),
    ("metadata_uri", nonEmptyText "Metadata URI is required"),
    -- for English auctions
    ("min_increment", .optional (digits none)),
    -- for Dutch auctions
    ("start_price", .optional (digits none)),
    ("price_decay_per_second", .optional (digits none)),
    -- for sealed bids
    ("commit_deadline", .optional (positiveInteger none)),
    ("reveal_deadline", .optional (positiveInteger none)),
    ("max_bidders", .optional ((integer.check (·.atLeast 1) none).check (·.atMost 1000) none))]

/-- The auction ends after it starts. -/
def endsAfterStart (data : Json) : Bool :=
  (data.prop "end_time").onNumber fun endTime =>
    (data.prop "start_time").onNumber fun startTime => endTime.greater startTime

/-- The body of a request to create an auction. -/
def createAuctionBodySchema : Schema :=
  (Schema.object createAuctionFields).refine endsAfterStart
    (some "End time must be after start time") ["end_time"]

/-- The fields of a bid. -/
def placeBidFields : List (String × Schema) :=
  [("bidder", stellarAddress none),
    ("bid_amount", positiveAmount "Bid amount must be a positive integer in stroops"
      "Bid amount must be positive"),
    ("format", .oneOf auctionFormats none)]

/-- The body of a request to place a bid. -/
def placeBidBodySchema : Schema := .object placeBidFields

/-! ### What they let pass -/

variable {parse : Schema → Json → Schema.Outcome} {v w : Json} {message : Option String}

theorem integer_iff (hz : Documented parse) :
    parse integer v = .parsed w ↔ ∃ n : ℤ, v = .int n ∧ w = v := by
  rw [integer, hz.check_iff, hz.number]
  constructor
  · rintro ⟨⟨⟨x, rfl⟩, rfl⟩, hint⟩
    obtain ⟨n, rfl⟩ := JsNumber.exists_int hint
    exact ⟨n, rfl, rfl⟩
  · rintro ⟨n, rfl, rfl⟩
    exact ⟨⟨⟨_, rfl⟩, rfl⟩, decide_eq_true (Rat.den_intCast n)⟩

theorem positiveInteger_iff (hz : Documented parse) :
    parse (positiveInteger message) v = .parsed w ↔ ∃ n : ℤ, 0 < n ∧ v = .int n ∧ w = v := by
  rw [positiveInteger, hz.check_iff, integer_iff hz]
  constructor
  · rintro ⟨⟨n, rfl, rfl⟩, hpos⟩
    exact ⟨n, by exact_mod_cast of_decide_eq_true hpos, rfl, rfl⟩
  · rintro ⟨n, hpos, rfl, rfl⟩
    exact ⟨⟨n, rfl, rfl⟩, decide_eq_true (by exact_mod_cast hpos)⟩

theorem string_text_iff (hz : Documented parse) {p : String → Bool} :
    parse (Schema.string.text p message) v = .parsed w ↔
      ∃ s, p s = true ∧ v = .string s ∧ w = v := by
  rw [hz.text_iff, hz.string]
  constructor
  · rintro ⟨⟨⟨s, rfl⟩, rfl⟩, hp⟩
    exact ⟨s, hp, rfl, rfl⟩
  · rintro ⟨s, hp, rfl, rfl⟩
    exact ⟨⟨⟨s, rfl⟩, rfl⟩, hp⟩

theorem stellarAddress_of_key (hz : Documented parse) {s : String}
    (h : isStellarKey 'G' s = true) :
    parse (stellarAddress message) (.string s) = .parsed (.string s) := by
  have hlength := textLength_of_key h
  rw [stellarAddress, hz.text_iff, hz.text_iff, string_text_iff hz]
  exact ⟨⟨⟨s, decide_eq_true hlength.ge, rfl, rfl⟩, decide_eq_true hlength.le⟩, h⟩

theorem key_of_stellarAddress (hz : Documented parse)
    (h : parse (stellarAddress message) v = .parsed w) :
    ∃ s, isStellarKey 'G' s = true ∧ w = .string s := by
  rw [stellarAddress, hz.text_iff, hz.text_iff, string_text_iff hz] at h
  obtain ⟨⟨⟨s, -, rfl, rfl⟩, -⟩, hkey⟩ := h
  exact ⟨s, hkey, rfl⟩

theorem positiveAmount_of_digits (hz : Documented parse) {digitsMessage positiveMessage : String}
    {s : String} (hs : isDigits s = true) (hpos : 0 < digitsValue s) :
    parse (positiveAmount digitsMessage positiveMessage) (.string s) = .parsed (.string s) := by
  rw [positiveAmount, hz.text_iff, digits, string_text_iff hz]
  exact ⟨⟨s, hs, rfl, rfl⟩, (isPositiveText_iff hs).mpr hpos⟩

/-- **The id of an auction is a number that a double can hold, and not zero.** -/
theorem auctionId_iff (hz : Documented parse) {s : String} :
    parse auctionId (.string s) = .parsed w ↔ isDigits s = true ∧
      ∃ n : ℤ, 0 < n ∧ numberOfDigits s = .finite n ∧ w = .int n := by
  rw [auctionId, hz.pipe]
  constructor
  · rintro ⟨u, hu, hw⟩
    obtain ⟨v, hv, rfl⟩ := (hz.transform _ _ _ _).mp hu
    obtain ⟨s', hs', heq, rfl⟩ := (string_text_iff hz).mp hv
    obtain rfl := Json.string.inj heq
    obtain ⟨n, hpos, hn, rfl⟩ := (positiveInteger_iff hz).mp hw
    exact ⟨hs', n, hpos, Json.number.inj hn, hn⟩
  · rintro ⟨hs, n, hpos, hn, rfl⟩
    refine ⟨.number (numberOfDigits s), ?_, ?_⟩
    · exact (hz.transform _ _ _ _).mpr ⟨.string s, (string_text_iff hz).mpr ⟨s, hs, rfl, rfl⟩, rfl⟩
    · have hint : Json.number (numberOfDigits s) = .int n := by rw [hn, Json.int]
      exact (positiveInteger_iff hz).mpr ⟨n, hpos, hint, hint.symm⟩

end UrithiBidz
