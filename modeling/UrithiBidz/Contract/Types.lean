import UrithiBidz.Library.Bytes
import UrithiBidz.Library.Ranged

/-!
# The data of the auction contract

The records the contract stores and the parameters it takes, field by field as
`types.rs` declares them. Addresses are opaque to the contract, which only compares
and stores them, so they are a type parameter throughout.

The contract keeps its records under the keys of the enumeration `StorageKey`. Each
constructor of that enumeration is a family of keys of its own, so the storage is one
partial map per family: `Storage.auctions` for `Auction(id)`, `Storage.commitments` for
`Commitment(id, bidder)` and so on, the three global keys being options. The lifetimes
of ledger entries are not part of the model: every write extends the lifetime of what
it writes, and an archived entry is restored, not lost.
-/

namespace UrithiBidz

/-- The auction format, which determines the bidding mechanics. -/
inductive AuctionFormat
  /-- Ascending bids: the highest bidder wins. -/
  | english
  /-- A falling price: the first buyer wins. -/
  | dutch
  /-- Commit and reveal. -/
  | sealedBid
  deriving DecidableEq

/-- Where an auction is in its life. -/
inductive AuctionStatus
  /-- Created, bidding not open. -/
  | created
  /-- Bidding is open. -/
  | active
  /-- Bidding is over and there is a winner. -/
  | ended
  /-- Funds distributed, item transferred. -/
  | settled
  /-- Cancelled by the seller, or closed without a bid. -/
  | cancelled
  deriving DecidableEq

variable (Address : Type)

/-- A token on the chain. -/
structure DigitalItem where
  nftContract : Address
  tokenId : U64
  deriving DecidableEq

/-- An item in the hands of a custodian. -/
structure PhysicalItem where
  custodian : Address
  attestationHash : BytesN 32
  deriving DecidableEq

/-- What is being auctioned. -/
inductive ItemType
  | digital (item : DigitalItem Address)
  | physical (item : PhysicalItem Address)
  deriving DecidableEq

/-- What a seller says of a new auction. -/
structure CreateAuctionParams where
  seller : Address
  originalCreator : Address
  format : AuctionFormat
  item : ItemType Address
  paymentToken : Address
  reservePrice : I128
  royaltyBps : U32
  startTime : U64
  endTime : U64
  metadataUri : String
  minIncrement : I128
  startPrice : I128
  priceDecayPerSecond : I128
  commitDeadline : U64
  revealDeadline : U64
  maxBidders : U64
  deriving DecidableEq

/-- A revealed bid. -/
structure SealedBidEntry where
  bidder : Address
  amount : I128
  revealedAt : U64
  deriving DecidableEq

/-- A commitment, and the deposit it was made with. -/
structure BidCommitment where
  bidder : Address
  commitment : BytesN 32
  amount : I128
  timestamp : U64
  deriving DecidableEq

/-- The record of an auction. -/
structure Auction where
  id : U64
  seller : Address
  originalCreator : Address
  format : AuctionFormat
  status : AuctionStatus
  item : ItemType Address
  paymentToken : Address
  reservePrice : I128
  royaltyBps : U32
  platformFeeBps : U32
  startTime : U64
  endTime : U64
  metadataUri : String
  highestBidder : Option Address
  highestBid : I128
  minIncrement : I128
  startPrice : I128
  currentDutchPrice : I128
  priceDecayPerSecond : I128
  commitDeadline : U64
  revealDeadline : U64
  maxBidders : U64
  bidderCount : U64
  revealedBids : List (SealedBidEntry Address)
  attested : Bool
  deriving DecidableEq

/-- What is published of a bid. -/
structure BidRecord where
  auctionId : U64
  bidder : Address
  amount : I128
  timestamp : U64
  format : AuctionFormat

/-- The platform's settings. -/
structure PlatformConfig where
  admin : Address
  defaultPlatformFeeBps : U32
  maxRoyaltyBps : U32
  paused : Bool
  deriving DecidableEq

/-- The storage of the contract, one partial map for each family of keys. -/
structure Storage where
  /-- `Auction(id)`. -/
  auctions : U64 → Option (Auction Address)
  /-- `Commitment(id, bidder)`. -/
  commitments : U64 → Address → Option (BidCommitment Address)
  /-- `RevealedBid(id, bidder)`. -/
  revealed : U64 → Address → Option (SealedBidEntry Address)
  /-- `Refund(id, bidder)`. -/
  refunds : U64 → Address → Option I128
  /-- `AuctionCount`. -/
  auctionCount : Option U64
  /-- `Config`. -/
  config : Option (PlatformConfig Address)
  /-- `PlatformWallet`. -/
  platformWallet : Option Address

variable {Address}

namespace Storage

/-- The storage of a contract that has just been deployed. -/
def empty : Storage Address where
  auctions := fun _ => none
  commitments := fun _ _ => none
  revealed := fun _ _ => none
  refunds := fun _ _ => none
  auctionCount := none
  config := none
  platformWallet := none

/-- Write the record of an auction. -/
def setAuction (s : Storage Address) (id : U64) (a : Auction Address) : Storage Address :=
  { s with auctions := Function.update s.auctions id (some a) }

/-- What the contract would create the next auction under. -/
def nextId (s : Storage Address) : U64 := s.auctionCount.getD 0

/-- The claimable refund of a bidder, as a missing entry reads. -/
def refund (s : Storage Address) (id : U64) (bidder : Address) : I128 :=
  (s.refunds id bidder).getD 0

variable [DecidableEq Address]

/-- Write a commitment. -/
def setCommitment (s : Storage Address) (id : U64) (bidder : Address)
    (c : Option (BidCommitment Address)) : Storage Address :=
  { s with
    commitments :=
      Function.update s.commitments id (Function.update (s.commitments id) bidder c) }

/-- Write a revealed bid. -/
def setRevealed (s : Storage Address) (id : U64) (bidder : Address)
    (e : SealedBidEntry Address) : Storage Address :=
  { s with
    revealed := Function.update s.revealed id (Function.update (s.revealed id) bidder (some e)) }

/-- Write a claimable refund, or remove it. -/
def setRefund (s : Storage Address) (id : U64) (bidder : Address) (amount : Option I128) :
    Storage Address :=
  { s with
    refunds := Function.update s.refunds id (Function.update (s.refunds id) bidder amount) }

end Storage

end UrithiBidz
