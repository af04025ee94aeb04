import UrithiBidz.Indexer.Database

/-!
# The handlers

What the indexer does with an event (`event_indexer.ts`): it looks up a handler by the first
topic, reads the auction id from the second and calls the handler with the payload. A handler
reads its fields, by name and with defaults, before it makes the first query, so it is a
function from the event to its queries, or an error.

`UrithiBidz.deliver` is the way of an event of the contract to the indexer, and
`UrithiBidz.Database.handle` is the whole of what an event does to the tables.
-/

namespace UrithiBidz

/-- What a handler does, given the auction id, the payload, the ledger and the transaction. -/
abbrev Handler := ℤ → Native → ℕ → Option String → Except String (List DbCall)

/-- A format by its name, an unknown one being an English auction. -/
def mapFormat : Native → String
  | .string "english" => "english"
  | .string "dutch" => "dutch"
  | .string "sealed_bid" => "sealed_bid"
  | _ => "english"

/-- `data.name || default`. -/
def fieldOr (data : Native) (name : String) (default : Native) : Except String Native :=
  return (← data.field name).orElse default

/-- `String(data.name || default)`. -/
def textOr (data : Native) (name default : String) : Except String String :=
  return (← fieldOr data name (.string default)).text

/-- `data.name ? String(data.name) : undefined`. -/
def textOf? (data : Native) (name : String) : Except String (Option String) := do
  let x ← data.field name
  return if x.truthy then some x.text else none

/-- The record of an auction as an object. -/
def AuctionRecord.toNative (r : AuctionRecord) : Native :=
  .object [("id", .number r.id), ("seller", r.seller), ("original_creator", r.originalCreator),
    ("format", .string r.format), ("status", .string r.status), ("item_type", r.itemType),
    ("nft_contract", r.nftContract), ("token_id", r.tokenId), ("custodian", r.custodian),
    ("attestation_hash", r.attestationHash), ("payment_token", r.paymentToken),
    ("reserve_price", .string r.reservePrice), ("royalty_bps", r.royaltyBps),
    ("platform_fee_bps", r.platformFeeBps), ("start_time", r.startTime), ("end_time", r.endTime),
    ("commit_deadline", r.commitDeadline), ("reveal_deadline", r.revealDeadline),
    ("metadata_uri", r.metadataUri), ("min_increment", .string r.minIncrement),
    ("start_price", .string r.startPrice),
    ("price_decay_per_second", .string r.priceDecayPerSecond),
    ("highest_bidder", r.highestBidder), ("highest_bid", .string r.highestBid),
    ("current_dutch_price", .string r.currentDutchPrice), ("attested", .bool r.attested)]

/-- The record of a bid as an object. -/
def BidRow.toNative (b : BidRow) : Native :=
  .object [("auction_id", .number b.auctionId), ("bidder", b.bidder), ("amount", .string b.amount),
    ("format", .string b.format), ("timestamp", b.timestamp), ("is_winning", .bool b.isWinning)]

namespace Handlers

/-- A new auction is written, as just created. -/
def auctionCreated : Handler := fun auctionId data ledgerSeq txHash => do
  let record : AuctionRecord :=
    { id := auctionId
      seller := ← fieldOr data "seller" (.string "")
      originalCreator := ← fieldOr data "original_creator" (.string "")
      format := mapFormat (← data.field "format")
      status := "created"
      itemType := ← fieldOr data "item_type" (.string "digital")
      nftContract := ← fieldOr data "nft_contract" .undefined
      tokenId := ← fieldOr data "token_id" .undefined
      custodian := ← fieldOr data "custodian" .undefined
      attestationHash := ← fieldOr data "attestation_hash" .undefined
      paymentToken := ← fieldOr data "payment_token" (.string "")
      reservePrice := ← textOr data "reserve_price" "0"
      royaltyBps := ← fieldOr data "royalty_bps" (.number 0)
      platformFeeBps := ← fieldOr data "platform_fee_bps" (.number 250)
      startTime := ← fieldOr data "start_time" (.number 0)
      endTime := ← fieldOr data "end_time" (.number 0)
      commitDeadline := ← fieldOr data "commit_deadline" .undefined
      revealDeadline := ← fieldOr data "reveal_deadline" .undefined
      metadataUri := ← fieldOr data "metadata_uri" (.string "")
      minIncrement := ← textOr data "min_increment" "0"
      startPrice := ← textOr data "start_price" "0"
      priceDecayPerSecond := ← textOr data "price_decay_per_second" "0"
      highestBid := "0"
      currentDutchPrice := ← textOr data "start_price" "0"
      attested := false }
  return [.upsertAuction record,
    .insertEvent ⟨"auction_created", auctionId, record.toNative, ledgerSeq, txHash⟩]

/-- A bid is written, and it is the highest; `now` stands in for a missing time. -/
def bidPlaced (now : ℤ) : Handler := fun auctionId data ledgerSeq txHash => do
  let bidder ← fieldOr data "bidder" (.string "")
  let amount ← textOr data "amount" "0"
  let bid : BidRow :=
    { auctionId := auctionId
      bidder := bidder
      amount := amount
      format := mapFormat (← data.field "format")
      timestamp := ← fieldOr data "timestamp" (.number now)
      isWinning := true }
  return [.insertBid bid, .updateAuctionOnBid auctionId bidder amount,
    .insertEvent ⟨"bid_placed", auctionId, bid.toNative, ledgerSeq, txHash⟩]

/-- The bids of a bidder are marked, and the event is stored under a name. -/
def bidGone (eventType : String) : Handler := fun auctionId data ledgerSeq txHash => do
  let bidder ← fieldOr data "bidder" (.string "")
  return [.markBidRefunded auctionId bidder,
    .insertEvent ⟨eventType, auctionId, data, ledgerSeq, txHash⟩]

/-- A refund was withdrawn. -/
def bidRefunded : Handler := bidGone "bid_refunded"

/-- A bidder was outbid. -/
def bidOut : Handler := bidGone "bid_outbid"

/-- An auction was closed, with a winner or without. -/
def auctionClosed : Handler := fun auctionId data ledgerSeq txHash => do
  let winner ← textOf? data "winner"
  let finalPrice ← textOf? data "final_price"
  return [.updateAuctionOnClose auctionId "closed" winner finalPrice,
    .insertEvent ⟨"auction_closed", auctionId, data, ledgerSeq, txHash⟩]

/-- An auction was settled. -/
def auctionSettled : Handler := fun auctionId data ledgerSeq txHash => do
  let sellerProceeds ← textOf? data "seller_proceeds"
  let royaltyAmount ← textOf? data "royalty_amount"
  let platformFeeAmount ← textOf? data "platform_fee_amount"
  return [.updateAuctionOnSettle auctionId sellerProceeds royaltyAmount platformFeeAmount,
    .insertEvent ⟨"auction_settled", auctionId, data, ledgerSeq, txHash⟩]

/-- An auction was cancelled. -/
def auctionCancelled : Handler := fun auctionId data ledgerSeq txHash =>
  return [.updateAuctionOnCancel auctionId,
    .insertEvent ⟨"auction_cancelled", auctionId, data, ledgerSeq, txHash⟩]

/-- A custodian attested. -/
def attestationRecorded : Handler := fun auctionId data ledgerSeq txHash => do
  let attestationHash ← fieldOr data "attestation_hash" (.string "")
  return [.updateAuctionOnAttestation auctionId attestationHash,
    .insertEvent ⟨"attestation_recorded", auctionId, data, ledgerSeq, txHash⟩]

/-- A deadline was extended: only the event is stored. -/
def auctionExtended : Handler := fun auctionId data ledgerSeq txHash =>
  return [.insertEvent ⟨"auction_extended", auctionId, data, ledgerSeq, txHash⟩]

end Handlers

/-- The handlers, by event type. -/
def handlers (now : ℤ) : String → Option Handler
  | "auction_created" => some Handlers.auctionCreated
  | "bid_placed" => some (Handlers.bidPlaced now)
  | "bid_refunded" => some Handlers.bidRefunded
  | "auction_closed" => some Handlers.auctionClosed
  | "auction_settled" => some Handlers.auctionSettled
  | "auction_cancelled" => some Handlers.auctionCancelled
  | "attestation_recorded" => some Handlers.attestationRecorded
  | "auc_ext" => some Handlers.auctionExtended
  | "bid_out" => some Handlers.bidOut
  | _ => none

/-! ### Events -/

/-- An event as the indexer gets it. -/
structure SorobanEvent where
  ledger : ℕ
  topics : List Native
  data : Native
  txHash : Option String

/-- What is done with an event: nothing, if it has too few topics, no auction id or no
handler. -/
def processEvent (now : ℤ) (event : SorobanEvent) : Except String (List DbCall) :=
  match event.topics with
  | eventType :: auctionId :: _ =>
    match auctionIdOf auctionId, handlers now eventType.text with
    | some auctionId, some handler => handler auctionId event.data event.ledger event.txHash
    | _, _ => return []
  | _ => return []

/-- Process an event: the tables then, and whether it went through. -/
def Database.handle (db : Database) (now : ℤ) (event : SorobanEvent) : Database × Bool :=
  match processEvent now event with
  | .ok calls => db.run calls
  | .error _ => (db, false)

/-- The filter of the indexer: three topics, whatever they are. -/
def SorobanEvent.fetched (event : SorobanEvent) : Bool := event.topics.length = 3

variable {Address : Type}

/-- An event of the contract, as it is delivered from a ledger. -/
def deliver (text : Address → String) (ledger : ℕ) (txHash : Option String)
    (event : Event Address) : SorobanEvent where
  ledger := ledger
  topics := event.topics.map (scValToNative text)
  data := payloadToNative text event.data
  txHash := txHash

end UrithiBidz
