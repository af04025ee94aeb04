import UrithiBidz.Contract.Types
import UrithiBidz.Library.Fallible

/-!
# What the contract sees and what it does

A call of the contract reads its environment – the ledger's clock, who has authorized
the call, its own address, the allowance a token contract reports, the host's hash
function and its spelling of an address – and the storage. It either panics, in which
case the host undoes everything, or returns with a new storage, the events it
published, and the calls it made to token contracts, in order. The token calls are kept
as data: `UrithiBidz.Outcome.calls` lists them, and the call as a whole succeeds when
the host can carry them all out. Since the contract cannot be re-entered and reads
nothing back from a transfer, its own storage does not depend on what the tokens do.

The emitters of `events.rs` and the two transfers of `escrow.rs` are here as well, each
under its own name.
-/

namespace UrithiBidz

variable {Address : Type}

/-! ### The environment -/

variable (Address) in
/-- The environment of a call. -/
structure Env where
  /-- The close time of the ledger. -/
  timestamp : U64
  /-- The sequence number of the ledger. -/
  sequence : U32
  /-- The address of the contract itself. -/
  currentContractAddress : Address
  /-- Who has authorized the call. -/
  auth : Address → Bool
  /-- What a token contract answers when asked for an allowance: token, owner, spender. -/
  allowance : Address → Address → Address → I128
  /-- The host's hash function. -/
  sha256 : List UInt8 → BytesN 32
  /-- The text of an address. -/
  addressToString : Address → List UInt8

/-- Panic unless the address has authorized the call. -/
def requireAuth (env : Env Address) (address : Address) : Except String Unit :=
  ensure (env.auth address = true) "Error(Auth, InvalidAction)"

theorem requireAuth_bind_eq_ok_iff {α : Type} {env : Env Address} {address : Address}
    {f : Unit → Except String α} {a : α} :
    requireAuth env address >>= f = .ok a ↔ env.auth address = true ∧ f () = .ok a :=
  ensure_bind_eq_ok_iff

theorem Env.ne_of_auth {env : Env Address} {x y : Address} (hx : env.auth x = true)
    (hy : env.auth y = false) : x ≠ y := by
  rintro rfl
  rw [hy] at hx
  cases hx

/-! ### Events -/

variable (Address) in
/-- A value of an event, as the host stores it. -/
inductive ScVal
  | symbol (s : String)
  | u64 (n : U64)
  | i128 (n : I128)
  | address (a : Address)
  | string (s : String)
  deriving DecidableEq

variable (Address) in
/-- The payload of an event: nothing, or a tuple. -/
inductive ScData
  | void
  | tuple (values : List (ScVal Address))
  deriving DecidableEq

variable (Address) in
/-- A published event. -/
structure Event where
  topics : List (ScVal Address)
  data : ScData Address
  deriving DecidableEq

/-- The symbol of a format. -/
def formatToSymbol : AuctionFormat → ScVal Address
  | .english => .symbol "english"
  | .dutch => .symbol "dutch"
  | .sealedBid => .symbol "sealed"

/-- An auction was created. -/
def emitAuctionCreated (auctionId : U64) (seller : Address) (format : AuctionFormat)
    (reservePrice : I128) (endTime : U64) (metadataUri : String) : Event Address where
  topics := [.symbol "auc_new", .u64 auctionId, .address seller]
  data := .tuple [formatToSymbol format, .i128 reservePrice, .u64 endTime, .string metadataUri]

/-- A bid was placed, or a Dutch auction bought. -/
def emitBidPlaced (record : BidRecord Address) : Event Address where
  topics := [.symbol "bid_new", .u64 record.auctionId, .address record.bidder]
  data := .tuple [.i128 record.amount, .u64 record.timestamp, formatToSymbol record.format]

/-- A deadline was extended. -/
def emitAuctionExtended (auctionId newEndTime : U64) : Event Address where
  topics := [.symbol "auc_ext", .u64 auctionId]
  data := .tuple [.u64 newEndTime]

/-- A bidder was outbid, and credited. -/
def emitBidOutbid (auctionId : U64) (bidder : Address) (amount : I128) : Event Address where
  topics := [.symbol "bid_out", .u64 auctionId, .address bidder]
  data := .tuple [.i128 amount]

/-- A bidder withdrew a refund. -/
def emitBidRefunded (auctionId : U64) (bidder : Address) (amount : I128) : Event Address where
  topics := [.symbol "bid_ref", .u64 auctionId, .address bidder]
  data := .tuple [.i128 amount]

/-- A commitment was accepted. -/
def emitCommitmentStored (auctionId : U64) (bidder : Address) : Event Address where
  topics := [.symbol "cmt_stor", .u64 auctionId, .address bidder]
  data := .void

/-- A bid was revealed. -/
def emitBidRevealed (auctionId : U64) (bidder : Address) (amount : I128) : Event Address where
  topics := [.symbol "bid_rev", .u64 auctionId, .address bidder]
  data := .tuple [.i128 amount]

/-- An auction closed with a winner. -/
def emitAuctionClosed (auctionId : U64) (winner : Address) (winningBid : I128)
    (format : AuctionFormat) : Event Address where
  topics := [.symbol "auc_end", .u64 auctionId, .address winner]
  data := .tuple [.i128 winningBid, formatToSymbol format]

/-- An auction was settled. -/
def emitAuctionSettled (auctionId : U64) (sellerProceeds royaltyAmount platformFee : I128) :
    Event Address where
  topics := [.symbol "auc_set", .u64 auctionId]
  data := .tuple [.i128 sellerProceeds, .i128 royaltyAmount, .i128 platformFee]

/-- A custodian attested. -/
def emitAttestationRecorded (auctionId : U64) (custodian : Address) : Event Address where
  topics := [.symbol "att_rec", .u64 auctionId, .address custodian]
  data := .void

/-- An auction was cancelled. -/
def emitAuctionCancelled (auctionId : U64) (seller : Address) : Event Address where
  topics := [.symbol "auc_cxl", .u64 auctionId, .address seller]
  data := .void

/-- The seller approved the transfer of the item. -/
def emitNftApproved (auctionId : U64) (nftContract : Address) (tokenId : U64) :
    Event Address where
  topics := [.symbol "nft_appr", .u64 auctionId]
  data := .tuple [.address nftContract, .u64 tokenId]

/-- A deposit that was never revealed was paid back. -/
def emitUnrevealedRefunded (auctionId : U64) (bidder : Address) (amount : I128) :
    Event Address where
  topics := [.symbol "urv_ref", .u64 auctionId, .address bidder]
  data := .tuple [.i128 amount]

/-! ### Token calls -/

variable (Address) in
/-- A call to a token contract. -/
inductive TokenCall
  /-- Move an amount of a token from one address to another. -/
  | transfer (token src dst : Address) (amount : I128)
  /-- Let a spender move an amount of the owner's, until a ledger. -/
  | approve (token owner spender : Address) (amount : I128) (expiration : U32)
  deriving DecidableEq

/-- Transfer bid funds from the bidder into the escrow of the contract. -/
def lockBid (env : Env Address) (paymentToken bidder : Address) (amount : I128) :
    TokenCall Address :=
  .transfer paymentToken bidder env.currentContractAddress amount

/-- Transfer escrowed funds back to the bidder. -/
def refundBid (env : Env Address) (paymentToken bidder : Address) (amount : I128) :
    TokenCall Address :=
  .transfer paymentToken env.currentContractAddress bidder amount

/-! ### The outcome of a call -/

/-- What an entry point returns. -/
inductive Value
  | unit
  | u64 (n : U64)
  | i128 (n : I128)
  deriving DecidableEq

variable (Address) in
/-- What a call that did not panic did. -/
structure Outcome where
  storage : Storage Address
  events : List (Event Address) := []
  calls : List (TokenCall Address) := []
  value : Value := .unit

end UrithiBidz
