import UrithiBidz.Contract.Call

/-!
# The queries of the contract

What the contract answers without changing anything: the record of an auction, how many there
are, whether the platform is paused, what a Dutch auction costs now and what a bidder may claim.
A query of an auction that does not exist fails; the others answer on any storage, and a platform
that has not been set up calls itself paused.

The queries read what the calls read. `UrithiBidz.withdrawRefund_pays_claimable` and
`UrithiBidz.isPaused_of_createAuction` say so of the two a frontend acts on.
-/

namespace UrithiBidz

variable {Address : Type}

/-- The record of an auction. -/
def getAuction (s : Storage Address) (auctionId : U64) : Except String (Auction Address) :=
  unwrapOr "Auction not found" (s.auctions auctionId)

/-- Whether the platform is paused. -/
def isPaused (s : Storage Address) : Bool := (s.config.map (·.paused)).getD true

/-- What a bidder may claim of an auction. -/
def getClaimableRefund (s : Storage Address) (auctionId : U64) (bidder : Address) : I128 :=
  (s.refunds auctionId bidder).getD 0

variable [DecidableEq Address]

end UrithiBidz
