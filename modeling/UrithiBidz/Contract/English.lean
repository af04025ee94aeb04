import UrithiBidz.Contract.Env

/-!
# English auctions

Bidders place increasing bids and the highest one wins when the auction ends
(`english.rs`). A bid locks its own amount, credits the bidder it displaces with a
claimable refund – nothing is pushed to anybody – and moves the deadline when it comes
late.

`UrithiBidz.placeBid` is the entry point. What has to hold for it to accept a bid is
the structure `UrithiBidz.AcceptsBid`, and `UrithiBidz.placeBid_eq_ok_iff` says that it
returns exactly then, and what it then does.
-/

namespace UrithiBidz

variable {Address : Type} [DecidableEq Address]

/-- A bid that leaves less than this before the deadline moves it. -/
def antiSnipeWindowSecs : U64 := .of 300

/-- How far from the bid the deadline is moved. -/
def extensionSecs : U64 := .of 300

/-- Credit the bidder who is being displaced, if there is one. -/
def creditPreviousBidder (s : Storage Address) (auctionId : U64) (auction : Auction Address) :
    Storage Address × List (Event Address) :=
  match auction.highestBidder with
  | some prevBidder =>
    let currentRefund := s.refund auctionId prevBidder
    let newRefund := currentRefund.saturatingAdd auction.highestBid
    (s.setRefund auctionId prevBidder (some newRefund),
      [emitBidOutbid auctionId prevBidder auction.highestBid])
  | none => (s, [])

/-- The deadline after a bid at time `now`. -/
def extendedEndTime (now endTime : U64) : U64 :=
  if endTime.saturatingSub now < antiSnipeWindowSecs then now.saturatingAdd extensionSecs
  else endTime

/-- The record after a bid. -/
def Auction.withBid (auction : Auction Address) (now : U64) (bidder : Address)
    (bidAmount : I128) : Auction Address :=
  { auction with
    endTime := extendedEndTime now auction.endTime
    highestBidder := some bidder
    highestBid := bidAmount }

/-- What a bid that is accepted does. -/
def placeBidOutcome (env : Env Address) (s : Storage Address) (auctionId : U64)
    (auction : Auction Address) (bidder : Address) (bidAmount : I128) : Outcome Address :=
  let now := env.timestamp
  let (credited, outbid) := creditPreviousBidder s auctionId auction
  let extended : List (Event Address) :=
    if auction.endTime.saturatingSub now < antiSnipeWindowSecs then
      [emitAuctionExtended auctionId (now.saturatingAdd extensionSecs)]
    else []
  { storage := credited.setAuction auctionId (auction.withBid now bidder bidAmount)
    events := outbid ++ extended ++ [emitBidPlaced ⟨auctionId, bidder, bidAmount, now, .english⟩]
    calls := [lockBid env auction.paymentToken bidder bidAmount] }

/-- Place a bid on an English auction. -/
def placeBid (env : Env Address) (s : Storage Address) (auctionId : U64) (bidder : Address)
    (bidAmount : I128) : Except String (Outcome Address) := do
  requireAuth env bidder
  let auction ← unwrapOr s!"Auction not found: {auctionId.val}" (s.auctions auctionId)
  ensure (auction.format = .english) "Not an English auction"
  ensure (auction.status = .active) "Auction not active"
  ensure (bidder ≠ auction.seller) "Seller cannot bid on own auction"
  let now := env.timestamp
  ensure (now < auction.endTime) "Auction has ended"
  ensure (now ≥ auction.startTime) "Auction not yet started"
  ensure (bidAmount ≥ auction.reservePrice) "Bid below reserve price"
  let minNextBid := auction.highestBid.saturatingAdd auction.minIncrement
  ensure (bidAmount ≥ minNextBid) "Bid must exceed highest bid by at least min_increment"
  return placeBidOutcome env s auctionId auction bidder bidAmount

/-! ### The deadline after a bid -/

/-- **What a bid makes of the deadline**: it is not earlier than before, it is still ahead, and
it leaves the whole window, unless time itself ends before. -/
theorem extendedEndTime_spec {now endTime : U64} (h : now < endTime) :
    endTime ≤ extendedEndTime now endTime ∧ now < extendedEndTime now endTime ∧
      (now.val + 300 ≤ U64.max.val → now.val + 300 ≤ (extendedEndTime now endTime).val) := by
  have hnow := now.lo_le
  have hend := endTime.le_hi
  rw [Ranged.lt_iff] at h
  rw [extendedEndTime]
  split
  · next hlate =>
    rw [Ranged.lt_iff, Ranged.val_saturatingSub, antiSnipeWindowSecs, Ranged.val_of] at hlate
    rw [Ranged.le_iff, Ranged.lt_iff, Ranged.val_saturatingAdd, extensionSecs, Ranged.val_of,
      U64.val_max]
    omega
  · next hearly =>
    rw [Ranged.lt_iff, Ranged.val_saturatingSub, antiSnipeWindowSecs, Ranged.val_of] at hearly
    rw [Ranged.le_iff, Ranged.lt_iff]
    omega

/-! ### When a bid is accepted -/

/-- **What a bid has to meet.** -/
structure AcceptsBid (env : Env Address) (auction : Auction Address) (bidder : Address)
    (bidAmount : I128) : Prop where
  auth : env.auth bidder = true
  format : auction.format = .english
  status : auction.status = .active
  not_seller : bidder ≠ auction.seller
  before_end : env.timestamp < auction.endTime
  started : auction.startTime ≤ env.timestamp
  reserve : auction.reservePrice ≤ bidAmount
  increment : auction.highestBid.saturatingAdd auction.minIncrement ≤ bidAmount

/-- **`place_bid` returns exactly on an acceptable bid.** -/
theorem placeBid_eq_ok_iff {env : Env Address} {s : Storage Address} {auctionId : U64}
    {bidder : Address} {bidAmount : I128} {o : Outcome Address} :
    placeBid env s auctionId bidder bidAmount = .ok o ↔
      ∃ auction, s.auctions auctionId = some auction ∧
        AcceptsBid env auction bidder bidAmount ∧
        o = placeBidOutcome env s auctionId auction bidder bidAmount := by
  simp only [placeBid, requireAuth_bind_eq_ok_iff, unwrapOr_bind_eq_ok_iff,
    ensure_bind_eq_ok_iff, Except.pure_eq_ok_iff]
  constructor
  · rintro ⟨h₁, auction, ha, h₂, h₃, h₄, h₅, h₆, h₇, h₈, rfl⟩
    exact ⟨auction, ha, ⟨h₁, h₂, h₃, h₄, h₅, h₆, h₇, h₈⟩, rfl⟩
  · rintro ⟨auction, ha, ⟨h₁, h₂, h₃, h₄, h₅, h₆, h₇, h₈⟩, rfl⟩
    exact ⟨h₁, auction, ha, h₂, h₃, h₄, h₅, h₆, h₇, h₈, rfl⟩

end UrithiBidz
