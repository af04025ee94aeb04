import UrithiBidz.Contract.Env

/-!
# Dutch auctions

The price starts high and falls linearly; the first buyer to accept the current price
wins at once (`dutch.rs`). The elapsed time times the decay may overflow, and so may the
subtraction from the start price: the first falls back to the greatest integer, the
second to the reserve.
-/

namespace UrithiBidz

variable {Address : Type}

/-- The current price of a Dutch auction. -/
def getCurrentPrice (env : Env Address) (auction : Auction Address) : I128 :=
  let now := env.timestamp
  if now ≤ auction.startTime then auction.startPrice
  else
    let elapsed := I128.ofU64 (now.saturatingSub auction.startTime)
    let decay := (elapsed.checkedMul auction.priceDecayPerSecond).getD I128.max
    let current := (auction.startPrice.checkedSub decay).getD auction.reservePrice
    if current < auction.reservePrice then auction.reservePrice else current

/-- The record after a purchase. -/
def Auction.withPurchase (auction : Auction Address) (buyer : Address) (price : I128) :
    Auction Address :=
  { auction with
    highestBidder := some buyer
    highestBid := price
    currentDutchPrice := price
    status := .ended }

/-- What a purchase that is accepted does. -/
def buyNowOutcome (env : Env Address) (s : Storage Address) (auctionId : U64)
    (auction : Auction Address) (buyer : Address) : Outcome Address :=
  let price := getCurrentPrice env auction
  { storage := s.setAuction auctionId (auction.withPurchase buyer price)
    events := [emitBidPlaced ⟨auctionId, buyer, price, env.timestamp, .dutch⟩,
      emitAuctionClosed auctionId buyer price .dutch]
    calls := [lockBid env auction.paymentToken buyer price] }

variable [DecidableEq Address]

/-- Accept the current price and win the Dutch auction. -/
def buyNow (env : Env Address) (s : Storage Address) (auctionId : U64) (buyer : Address)
    (maxPrice : Option I128) : Except String (Outcome Address) := do
  requireAuth env buyer
  let auction ← unwrapOr s!"Auction not found: {auctionId.val}" (s.auctions auctionId)
  ensure (auction.format = .dutch) "Not a Dutch auction"
  ensure (auction.status = .active) "Auction not active"
  ensure (buyer ≠ auction.seller) "Seller cannot buy own auction"
  let now := env.timestamp
  ensure (now ≥ auction.startTime) "Auction not yet started"
  ensure (now < auction.endTime) "Auction has ended"
  let price := getCurrentPrice env auction
  ensure (∀ limit ∈ maxPrice, price ≤ limit) "Current price exceeds max acceptable price"
  return buyNowOutcome env s auctionId auction buyer

/-- **What a purchase has to meet.** -/
structure AcceptsPurchase (env : Env Address) (auction : Auction Address) (buyer : Address)
    (maxPrice : Option I128) : Prop where
  auth : env.auth buyer = true
  format : auction.format = .dutch
  status : auction.status = .active
  not_seller : buyer ≠ auction.seller
  started : auction.startTime ≤ env.timestamp
  before_end : env.timestamp < auction.endTime
  slippage : ∀ limit ∈ maxPrice, getCurrentPrice env auction ≤ limit

/-- **`buy_now` returns exactly on an acceptable purchase.** -/
theorem buyNow_eq_ok_iff {env : Env Address} {s : Storage Address} {auctionId : U64}
    {buyer : Address} {maxPrice : Option I128} {o : Outcome Address} :
    buyNow env s auctionId buyer maxPrice = .ok o ↔
      ∃ auction, s.auctions auctionId = some auction ∧
        AcceptsPurchase env auction buyer maxPrice ∧
        o = buyNowOutcome env s auctionId auction buyer := by
  simp only [buyNow, requireAuth_bind_eq_ok_iff, unwrapOr_bind_eq_ok_iff,
    ensure_bind_eq_ok_iff, Except.pure_eq_ok_iff]
  constructor
  · rintro ⟨h₁, auction, ha, h₂, h₃, h₄, h₅, h₆, h₇, rfl⟩
    exact ⟨auction, ha, ⟨h₁, h₂, h₃, h₄, h₅, h₆, h₇⟩, rfl⟩
  · rintro ⟨auction, ha, ⟨h₁, h₂, h₃, h₄, h₅, h₆, h₇⟩, rfl⟩
    exact ⟨h₁, auction, ha, h₂, h₃, h₄, h₅, h₆, h₇, rfl⟩

omit [DecidableEq Address] in
/-- The price never undercuts a reserve that the start price does not undercut. -/
theorem reserve_le_getCurrentPrice {env : Env Address} {auction : Auction Address}
    (h : auction.reservePrice ≤ auction.startPrice) :
    auction.reservePrice ≤ getCurrentPrice env auction := by
  unfold getCurrentPrice
  dsimp only
  split
  · exact h
  · split
    · exact le_refl auction.reservePrice.val
    · next hlt => exact Ranged.not_lt_iff.mp hlt

end UrithiBidz
