import UrithiBidz.Indexer.Database
import UrithiBidz.Library.Fallible
import UrithiBidz.Server.Schemas

/-!
# The routes of the pre-flight

Before a user signs a transaction, the backend says what the contract will make of it
(`routes/auctions.ts`). `UrithiBidz.simulateCreate` looks at the body of a new auction,
`UrithiBidz.simulateBid` at a bid and at the row of its auction. Both are behind the validation of
the request (`UrithiBidz.validate`, from `middleware/validate.ts`), with the validator as a
parameter, and so is the query for the row, which may fail.

A route always answers. What matters to the user is whether the answer is that the transaction is
valid, `UrithiBidz.Response.answersValid`, and each route has a lemma that tells when it is.
-/

namespace UrithiBidz

open Schema (Documented)

/-! ### Responses -/

/-- What a request is answered with. -/
structure Response where
  status : ℕ
  body : Json

namespace Response

/-- A request has failed. -/
def failure (status : ℕ) (error : String) : Response :=
  ⟨status, .object [("success", .bool false), ("error", .string error)]⟩

/-- A simulation has succeeded. -/
def simulation (fields : List (String × Json)) : Response :=
  ⟨200, .object [("success", .bool true),
    ("simulation", .object (("valid", .bool true) :: fields))]⟩

/-- The answer is that the transaction is valid. -/
def answersValid (response : Response) : Bool :=
  match (response.body.prop "simulation").prop "valid" with
  | .bool valid => valid
  | _ => false

theorem answersValid_simulation (fields : List (String × Json)) :
    (simulation fields).answersValid = true := rfl

theorem answersValid_of_lookup {status : ℕ} {fields : List (String × Json)}
    (h : fields.lookup "simulation" = none) :
    (⟨status, .object fields⟩ : Response).answersValid = false := by
  rw [answersValid, Json.prop, h]
  rfl

theorem answersValid_failure (status : ℕ) (error : String) :
    (failure status error).answersValid = false := answersValid_of_lookup rfl

end Response

/-- What is found fault with, in an answer. -/
def issueDetail (issue : Schema.Issue) : Json :=
  .object [("field", .string (".".intercalate issue.path)), ("message", .string issue.message)]

/-- A request goes on if what is validated is valid. Other exceptions than that of the validator
are left to the framework, which answers with a page. -/
def validate (parse : Schema → Json → Schema.Outcome) (schema : Schema) (target : Json)
    (next : Json → Response) : Response :=
  match parse schema target with
  | .parsed parsed => next parsed
  | .invalid errors =>
    ⟨400, .object [("success", .bool false), ("error", .string "Validation failed"),
      ("details", .array (errors.map issueDetail))]⟩
  | .threw err => ⟨500, .string err⟩

/-- **The answer is that all is valid, exactly if that is the answer to what has been parsed.** -/
theorem answersValid_validate_iff {parse : Schema → Json → Schema.Outcome} {schema : Schema}
    {target : Json} {next : Json → Response} :
    (validate parse schema target next).answersValid = true ↔
      ∃ parsed, parse schema target = .parsed parsed ∧ (next parsed).answersValid = true := by
  unfold validate
  rcases parse schema target with parsed | errors | err
  · exact ⟨fun h => ⟨parsed, rfl, h⟩, fun ⟨_, heq, h⟩ => by
      rw [Schema.Outcome.parsed.inj heq]
      exact h⟩
  · refine iff_of_false (Bool.not_eq_true _ |>.mpr (Response.answersValid_of_lookup rfl)) ?_
    rintro ⟨_, ⟨⟩, -⟩
  · refine iff_of_false Bool.false_ne_true ?_
    rintro ⟨_, ⟨⟩, -⟩

/-! ### A new auction -/

/-- The answer for a body that has been validated. -/
def createSimulation (body : Json) : Response :=
  let royaltyBps := (body.prop "royalty_bps").orElse (.int 0)
  let platformFeeBps := (body.prop "platform_fee_bps").orElse (.int 250)
  match royaltyBps, platformFeeBps with
  | .number (.finite royalty), .number (.finite platformFee) =>
    if royalty + platformFee > 10000 then
      .failure 400 "Combined royalty and platform fee exceeds 10,000 basis points (100%)"
    else
      let sellerProceedsBps := 10000 - (royalty + platformFee)
      .simulation [("royalty_bps", royaltyBps), ("platform_fee_bps", platformFeeBps),
        ("seller_proceeds_bps", .number (.finite sellerProceedsBps)),
        ("estimated_start_time", body.prop "start_time"),
        ("estimated_end_time", body.prop "end_time")]
  -- no other values come through the schema
  | _, _ => .failure 500 "Failed to simulate auction creation"

/-- `POST /simulate-create` -/
def simulateCreate (parse : Schema → Json → Schema.Outcome) (body : Json) : Response :=
  validate parse createAuctionBodySchema body createSimulation

/-! ### A bid -/

/-- `BigInt(v)`, for a text or an integer. -/
def bigIntOf : Json → Option ℤ
  | .string s => bigInt s.toList
  | v => v.toInt

/-- `BigInt(text || "0")`, for a column of the row. -/
def amountColumn (text : String) : Except String ℤ :=
  unwrapOr s!"Cannot convert {text} to a BigInt" (bigInt (if text = "" then "0" else text).toList)

/-- What the route asks of a bid at least. -/
def minRequired (currentHighest reservePrice minIncrement : ℤ) : ℤ :=
  if currentHighest = 0 then reservePrice else currentHighest + minIncrement

/-- The answer for a row and an amount. -/
def bidSimulation (auction : AuctionRecord) (bidAmount : Json) : Except String Response :=
  if auction.status ≠ "active" ∧ auction.status ≠ "created" then
    return .failure 400 s!"Auction is {auction.status}, bids not accepted"
  else do
    let currentHighest ← amountColumn auction.highestBid
    let reservePrice ← amountColumn auction.reservePrice
    let minIncrement ← amountColumn auction.minIncrement
    let proposedBid ← unwrapOr "Cannot convert the bid to a BigInt" (bigIntOf bidAmount)
    let minRequired := minRequired currentHighest reservePrice minIncrement
    if proposedBid < minRequired then
      return ⟨400, .object [("success", .bool false),
        ("error", .string s!"Bid too low. Minimum required: {minRequired}"),
        ("current_highest", .string (toString currentHighest)),
        ("minimum_required", .string (toString minRequired))]⟩
    else
      return .simulation [("proposed_bid", .string (toString proposedBid)),
        ("previous_highest", .string (toString currentHighest)),
        ("outbid_address", if auction.highestBidder.truthy then .string auction.highestBidder.text
          else .null)]

/-- The answer for an id and a body that have been validated. -/
def placeBidSimulation (getAuction : ℤ → Except String (Option AuctionRecord))
    (params body : Json) : Except String Response := do
  -- the schema has made a number of it
  let id ← unwrapOr "The id is not a number" (params.prop "id").toInt
  match ← getAuction id with
  | none => return .failure 404 "Auction not found"
  | some auction => bidSimulation auction (body.prop "bid_amount")

/-- `POST /:id/simulate-bid` -/
def simulateBid (parse : Schema → Json → Schema.Outcome)
    (getAuction : ℤ → Except String (Option AuctionRecord)) (id : String) (body : Json) :
    Response :=
  validate parse auctionIdSchema (.object [("id", .string id)]) fun params =>
    validate parse placeBidBodySchema body fun body =>
      match placeBidSimulation getAuction params body with
      | .ok response => response
      | .error _ => .failure 500 "Failed to simulate bid"

/-! ### When a new auction is valid -/

variable {parse : Schema → Json → Schema.Outcome}

/-- The fee that a simulation reports. -/
def Response.platformFeeBps (response : Response) : Json :=
  (response.body.prop "simulation").prop "platform_fee_bps"

theorem Json.int_orElse_zero (n : ℤ) : (Json.int n).orElse (.int 0) = .int n := by
  rw [Json.orElse]
  split
  · rfl
  · next hfalsy =>
    -- the only integer that is not truthy is zero
    have hzero : JsNumber.finite n = .finite 0 := by simpa [Json.truthy, Json.int] using hfalsy
    rw [Json.int, Json.int, hzero, Int.cast_zero]

/-- The answer for a body without a fee. -/
theorem createSimulation_valid_iff {body : Json} {royalty : ℤ}
    (hroyalty : body.prop "royalty_bps" = .int royalty)
    (hfee : body.prop "platform_fee_bps" = .undefined) :
    (createSimulation body).answersValid = true ↔
      royalty + 250 ≤ 10000 ∧ (createSimulation body).platformFeeBps = .int 250 := by
  have hdefault : (body.prop "platform_fee_bps").orElse (.int 250) = .int 250 := by
    rw [hfee]
    rfl
  have hsum : ((royalty : ℚ) + ((250 : ℤ) : ℚ) > 10000) ↔ ¬royalty + 250 ≤ 10000 := by
    rw [not_le]
    exact_mod_cast Iff.rfl
  rw [createSimulation, hroyalty, Json.int_orElse_zero, hdefault, Json.int, Json.int]
  dsimp only
  simp only [hsum]
  split
  · next hover =>
    rw [Response.answersValid_failure]
    exact iff_of_false Bool.false_ne_true fun h => hover h.1
  · next hfits =>
    rw [Response.answersValid_simulation]
    exact iff_of_true rfl ⟨not_not.mp hfits, rfl⟩

/-- **When a new auction is valid.** The fee is stripped from the body, so it is always that of the
default. -/
theorem simulateCreate_valid (hz : Documented parse) {body : Json}
    (h : (simulateCreate parse body).answersValid = true) :
    ∃ royalty startTime endTime : ℤ, body.prop "royalty_bps" = .int royalty ∧
      body.prop "start_time" = .int startTime ∧ body.prop "end_time" = .int endTime ∧
        startTime < endTime ∧ royalty + 250 ≤ 10000 ∧
          (simulateCreate parse body).platformFeeBps = .int 250 := by
  obtain ⟨w, hparsed, hvalid⟩ := answersValid_validate_iff.mp h
  obtain ⟨hobject, htimes⟩ := (hz.refine _ _ _ _ _ _).mp hparsed
  obtain ⟨-, hfields, hstripped⟩ := hz.object_parsed createAuctionFields _ _ (by decide) hobject
  have hroyalty := hfields "royalty_bps" _
    (List.mem_of_getElem? (rfl : createAuctionFields[9]? = some _))
  rw [hz.check_iff, hz.check_iff, integer_iff hz] at hroyalty
  obtain ⟨⟨⟨royalty, hroyalty, hroyalty'⟩, -⟩, -⟩ := hroyalty
  have hstart := hfields "start_time" _
    (List.mem_of_getElem? (rfl : createAuctionFields[10]? = some _))
  obtain ⟨startTime, -, hstart, hstart'⟩ := (positiveInteger_iff hz).mp hstart
  have hend := hfields "end_time" _
    (List.mem_of_getElem? (rfl : createAuctionFields[11]? = some _))
  obtain ⟨endTime, -, hend, hend'⟩ := (positiveInteger_iff hz).mp hend
  have hfee : w.prop "platform_fee_bps" = .undefined := hstripped _ (by decide)
  obtain ⟨hfits, hreported⟩ :=
    (createSimulation_valid_iff (hroyalty'.trans hroyalty) hfee).mp hvalid
  refine ⟨royalty, startTime, endTime, hroyalty, hstart, hend, ?_, hfits, ?_⟩
  · rw [endsAfterStart, hend', hend, hstart', hstart] at htimes
    exact_mod_cast of_decide_eq_true htimes
  · rw [simulateCreate, validate, hparsed]
    exact hreported

/-! ### When a bid is valid -/

theorem amountColumn_of_bigInt {text : String} {n : ℤ} (h : bigInt text.toList = some n) :
    amountColumn text = .ok n := by
  rw [amountColumn, unwrapOr_eq_ok_iff]
  split
  · next hempty =>
    -- nothing at all is zero
    rw [hempty] at h
    exact h
  · exact h

/-- The amounts in a row. -/
structure AuctionRecord.Amounts (auction : AuctionRecord)
    (currentHighest reservePrice minIncrement : ℤ) : Prop where
  highestBid : bigInt auction.highestBid.toList = some currentHighest
  reservePrice : bigInt auction.reservePrice.toList = some reservePrice
  minIncrement : bigInt auction.minIncrement.toList = some minIncrement

/-- A bid as it is sent. -/
structure BidBody (body : Json) (amount : ℤ) : Prop where
  object : ∃ fields, body = .object fields
  bidder : ∃ key, isStellarKey 'G' key = true ∧ body.prop "bidder" = .string key
  amount : ∃ text, isDigits text = true ∧ (digitsValue text : ℤ) = amount ∧
    body.prop "bid_amount" = .string text
  format : ∃ format ∈ auctionFormats, body.prop "format" = .string format

variable {getAuction : ℤ → Except String (Option AuctionRecord)} {auction : AuctionRecord}
  {currentHighest reservePrice minIncrement amount : ℤ}

/-- The answer for a row. -/
theorem bidSimulation_valid_iff {bidAmount : Json}
    (hrow : auction.Amounts currentHighest reservePrice minIncrement)
    (hamount : bigIntOf bidAmount = some amount) :
    (∃ response, bidSimulation auction bidAmount = .ok response ∧
      response.answersValid = true) ↔ (auction.status = "active" ∨ auction.status = "created") ∧
        minRequired currentHighest reservePrice minIncrement ≤ amount := by
  rw [bidSimulation, amountColumn_of_bigInt hrow.highestBid,
    amountColumn_of_bigInt hrow.reservePrice, amountColumn_of_bigInt hrow.minIncrement, hamount]
  split
  · next hclosed =>
    refine iff_of_false ?_ fun h => h.1.elim hclosed.1 hclosed.2
    rintro ⟨_, ⟨⟩, ⟨⟩⟩
  · next hopen =>
    rw [not_and_or, not_not, not_not] at hopen
    change (∃ response, (if amount < minRequired currentHighest reservePrice minIncrement then _
      else _) = Except.ok response ∧ _) ↔ _
    split
    · next hlow =>
      refine iff_of_false ?_ fun h => absurd hlow (not_lt.mpr h.2)
      rintro ⟨_, ⟨⟩, ⟨⟩⟩
    · next henough => exact iff_of_true ⟨_, rfl, rfl⟩ ⟨hopen, not_lt.mp henough⟩

/-- The path of a request about an auction is parsed if the number is positive. -/
theorem auctionIdSchema_iff (hz : Documented parse) {id : String} (hid : isDigits id = true)
    {n : ℤ} (hn : numberOfDigits id = .finite n) :
    ((∃ w, parse auctionIdSchema (.object [("id", .string id)]) = .parsed w) ↔ 0 < n) ∧
      ∀ w, parse auctionIdSchema (.object [("id", .string id)]) = .parsed w →
        (w.prop "id").toInt = some n := by
  have hfield : ∀ w, parse auctionIdSchema (.object [("id", .string id)]) = .parsed w →
      0 < n ∧ w.prop "id" = .int n := by
    intro w hw
    obtain ⟨-, hparsed, -⟩ := hz.object_parsed _ _ _ (by decide) hw
    obtain ⟨-, n', hpos, hn', hw'⟩ :=
      (auctionId_iff hz).mp (hparsed "id" auctionId List.mem_cons_self)
    obtain rfl : n' = n := by exact_mod_cast JsNumber.finite.inj (hn'.symm.trans hn)
    exact ⟨hpos, hw'⟩
  refine ⟨⟨fun ⟨w, hw⟩ => (hfield w hw).1, fun hpos => ?_⟩, fun w hw => ?_⟩
  · refine hz.object_accepts _ _ fun name s hmem => ?_
    obtain ⟨rfl, rfl⟩ := Prod.mk.inj (List.mem_singleton.mp hmem)
    exact ⟨.int n, (auctionId_iff hz).mpr ⟨hid, n, hpos, hn, rfl⟩⟩
  · rw [(hfield w hw).2, Json.toInt_int]

/-- A bid is parsed as it is sent. -/
theorem placeBidBodySchema_parsed (hz : Documented parse) {body : Json} (h : BidBody body amount)
    (hpos : 0 < amount) : ∃ w, parse placeBidBodySchema body = .parsed w ∧
      bigIntOf (w.prop "bid_amount") = some amount := by
  obtain ⟨fields, rfl⟩ := h.object
  obtain ⟨key, hkey, hbidder⟩ := h.bidder
  obtain ⟨text, htext, hvalue, hamount⟩ := h.amount
  obtain ⟨format, hmem, hformat⟩ := h.format
  have hparsed : parse (positiveAmount "Bid amount must be a positive integer in stroops"
      "Bid amount must be positive") (.string text) = .parsed (.string text) :=
    positiveAmount_of_digits hz htext (by omega)
  obtain ⟨w, hw⟩ := hz.object_accepts placeBidFields fields fun name s hfield => by
    rcases List.mem_cons.mp hfield with heq | hfield
    · obtain ⟨rfl, rfl⟩ := Prod.mk.inj heq
      exact ⟨_, hbidder ▸ stellarAddress_of_key hz hkey⟩
    rcases List.mem_cons.mp hfield with heq | hfield
    · obtain ⟨rfl, rfl⟩ := Prod.mk.inj heq
      exact ⟨_, hamount ▸ hparsed⟩
    · obtain ⟨rfl, rfl⟩ := Prod.mk.inj (List.mem_singleton.mp hfield)
      exact ⟨_, hformat ▸ (hz.oneOf _ _ _ _).mpr ⟨⟨format, hmem, rfl⟩, rfl⟩⟩
  refine ⟨w, hw, ?_⟩
  obtain ⟨-, hfields, -⟩ := hz.object_parsed _ _ _ (by decide) hw
  have hsame := hfields "bid_amount" _ (List.mem_cons_of_mem _ List.mem_cons_self)
  rw [hamount, hparsed] at hsame
  rw [← Schema.Outcome.parsed.inj hsame, ← hvalue]
  exact bigInt_of_isDigits htext

/-- **When a bid is valid**: the auction is not zero, it is active or created, and the amount is at
least what is asked. -/
theorem simulateBid_valid_iff (hz : Documented parse) {id : String} (hid : isDigits id = true)
    {n : ℤ} (hn : numberOfDigits id = .finite n) (hauction : getAuction n = .ok (some auction))
    (hrow : auction.Amounts currentHighest reservePrice minIncrement) {body : Json}
    (hbody : BidBody body amount) (hpos : 0 < amount) :
    (simulateBid parse getAuction id body).answersValid = true ↔
      0 < n ∧ (auction.status = "active" ∨ auction.status = "created") ∧
        minRequired currentHighest reservePrice minIncrement ≤ amount := by
  obtain ⟨hpath, hparams⟩ := auctionIdSchema_iff hz hid hn
  obtain ⟨parsed, hparsed, hamount⟩ := placeBidBodySchema_parsed hz hbody hpos
  rw [← bidSimulation_valid_iff hrow hamount, ← hpath, simulateBid, answersValid_validate_iff,
    ← exists_and_right]
  refine exists_congr fun params => and_congr_right fun hw => ?_
  -- the route reads the auction of the id, and answers by its row
  have hanswer : placeBidSimulation getAuction params parsed =
      bidSimulation auction (parsed.prop "bid_amount") := by
    rw [placeBidSimulation, hparams params hw, unwrapOr]
    change (getAuction n >>= _) = _
    rw [hauction]
    rfl
  rw [answersValid_validate_iff]
  constructor
  · rintro ⟨parsed', hparsed', hvalid⟩
    obtain rfl := Schema.Outcome.parsed.inj (hparsed.symm.trans hparsed')
    rw [hanswer] at hvalid
    split at hvalid
    · next response hresponse => exact ⟨response, hresponse, hvalid⟩
    · cases hvalid
  · rintro ⟨response, hresponse, hvalid⟩
    refine ⟨parsed, hparsed, ?_⟩
    rw [hanswer, hresponse]
    exact hvalid

end UrithiBidz
