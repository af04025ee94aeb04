import UrithiBidz.Contract.Royalty
import UrithiBidz.Contract.SealedBid

/-!
# The life of an auction

The entry points of `lib.rs` that do not depend on the auction format: initialization,
creation, attestation and activation, cancellation, the approval of the item, refunds,
closing, settlement and the platform's settings. Closing a sealed-bid auction with a
revealed bid is left to `UrithiBidz.finalizeSealedAuction`, which reads the record again.

Each entry point is followed by what it accepts, when that is more than a condition or
two, and by the theorem that says when it returns and what it then does.
-/

namespace UrithiBidz

variable {Address : Type} [DecidableEq Address]

/-! ### Initialization -/

/-- What setting up does. -/
def initializeOutcome (s : Storage Address) (admin : Address)
    (defaultPlatformFeeBps maxRoyaltyBps : U32) (platformWallet : Address) : Outcome Address where
  storage := { s with
    config := some ⟨admin, defaultPlatformFeeBps, maxRoyaltyBps, false⟩
    auctionCount := some 0
    platformWallet := some platformWallet }

/-- Set the platform up, once. -/
def initializeContract (env : Env Address) (s : Storage Address) (admin : Address)
    (defaultPlatformFeeBps maxRoyaltyBps : U32) (platformWallet : Address) :
    Except String (Outcome Address) := do
  requireAuth env admin
  ensure (s.config = none) "Already initialized"
  return initializeOutcome s admin defaultPlatformFeeBps maxRoyaltyBps platformWallet

omit [DecidableEq Address] in
/-- **`initialize` returns exactly once.** -/
theorem initializeContract_eq_ok_iff {env : Env Address} {s : Storage Address}
    {admin platformWallet : Address} {fee maxRoyalty : U32} {o : Outcome Address} :
    initializeContract env s admin fee maxRoyalty platformWallet = .ok o ↔
      (env.auth admin = true ∧ s.config = none) ∧
        o = initializeOutcome s admin fee maxRoyalty platformWallet := by
  simp only [initializeContract, requireAuth_bind_eq_ok_iff, ensure_bind_eq_ok_iff,
    Except.pure_eq_ok_iff]
  constructor
  · rintro ⟨h₁, h₂, rfl⟩
    exact ⟨⟨h₁, h₂⟩, rfl⟩
  · rintro ⟨⟨h₁, h₂⟩, rfl⟩
    exact ⟨h₁, h₂, rfl⟩

/-! ### Creation -/

/-- The deadlines and prices a format needs. -/
def checkFormat (params : CreateAuctionParams Address) : Except String Unit :=
  match params.format with
  | .english => ensure (params.minIncrement > 0) "Min increment must be positive"
  | .dutch => do
    ensure (params.startPrice > params.reservePrice) "Start price must exceed reserve"
    ensure (params.priceDecayPerSecond > 0) "Decay must be positive"
  | .sealedBid => do
    ensure (params.startTime < params.commitDeadline) "Commit deadline after start"
    ensure (params.commitDeadline < params.revealDeadline) "Reveal deadline after commit"
    ensure (params.revealDeadline ≤ params.endTime) "Reveal deadline mismatch"

/-- The record of a new auction. -/
def newAuction (params : CreateAuctionParams Address) (auctionId : U64) (platformFeeBps : U32) :
    Auction Address where
  id := auctionId
  seller := params.seller
  originalCreator := params.originalCreator
  format := params.format
  status := .created
  item := params.item
  paymentToken := params.paymentToken
  reservePrice := params.reservePrice
  royaltyBps := params.royaltyBps
  platformFeeBps := platformFeeBps
  startTime := params.startTime
  endTime := params.endTime
  metadataUri := params.metadataUri
  highestBidder := none
  highestBid := 0
  minIncrement := params.minIncrement
  startPrice := params.startPrice
  currentDutchPrice := params.startPrice
  priceDecayPerSecond := params.priceDecayPerSecond
  commitDeadline := params.commitDeadline
  revealDeadline := params.revealDeadline
  maxBidders := params.maxBidders
  bidderCount := 0
  revealedBids := []
  attested := false

/-- What creating an auction does. -/
def createAuctionOutcome (s : Storage Address) (params : CreateAuctionParams Address)
    (config : PlatformConfig Address) : Outcome Address :=
  let auctionId := s.nextId
  { storage := ({ s with auctionCount := some (auctionId.wrappingAdd 1) } :
        Storage Address).setAuction auctionId
      (newAuction params auctionId config.defaultPlatformFeeBps)
    events := [emitAuctionCreated auctionId params.seller params.format params.reservePrice
      params.endTime params.metadataUri]
    value := .u64 auctionId }

/-- Create an auction, under the next id. -/
def createAuction (env : Env Address) (s : Storage Address)
    (params : CreateAuctionParams Address) : Except String (Outcome Address) := do
  requireAuth env params.seller
  let config ← unwrapOr "Not initialized" s.config
  ensure (config.paused = false) "Platform is paused"
  ensure (params.royaltyBps ≤ config.maxRoyaltyBps) "Royalty exceeds maximum allowed"
  let totalFeesBps := params.royaltyBps.saturatingAdd config.defaultPlatformFeeBps
  ensure (totalFeesBps ≤ Ranged.of 10000)
    "Combined royalty and platform fee exceeds 100%"
  ensure (params.startTime < params.endTime) "Invalid time range"
  checkFormat params
  return createAuctionOutcome s params config

/-- **What a new auction has to meet.** -/
structure AcceptsAuction (env : Env Address) (params : CreateAuctionParams Address)
    (config : PlatformConfig Address) : Prop where
  auth : env.auth params.seller = true
  unpaused : config.paused = false
  royalty : params.royaltyBps ≤ config.maxRoyaltyBps
  fees : params.royaltyBps.saturatingAdd config.defaultPlatformFeeBps ≤ Ranged.of 10000
  times : params.startTime < params.endTime
  english : params.format = .english → params.minIncrement > 0
  dutch : params.format = .dutch →
    params.startPrice > params.reservePrice ∧ params.priceDecayPerSecond > 0
  sealed : params.format = .sealedBid →
    params.startTime < params.commitDeadline ∧ params.commitDeadline < params.revealDeadline ∧
      params.revealDeadline ≤ params.endTime

omit [DecidableEq Address] in
theorem checkFormat_eq_ok_iff {params : CreateAuctionParams Address} {u : Unit} :
    checkFormat params = .ok u ↔
      (params.format = .english → params.minIncrement > 0) ∧
        (params.format = .dutch →
          params.startPrice > params.reservePrice ∧ params.priceDecayPerSecond > 0) ∧
        (params.format = .sealedBid →
          params.startTime < params.commitDeadline ∧
            params.commitDeadline < params.revealDeadline ∧
            params.revealDeadline ≤ params.endTime) := by
  unfold checkFormat
  cases params.format <;> simp [ensure_bind_eq_ok_iff, ensure_eq_ok_iff]

omit [DecidableEq Address] in
/-- **`create_auction` returns exactly on acceptable parameters**, once the platform is
set up. -/
theorem createAuction_eq_ok_iff {env : Env Address} {s : Storage Address}
    {params : CreateAuctionParams Address} {o : Outcome Address} :
    createAuction env s params = .ok o ↔
      ∃ config, s.config = some config ∧ AcceptsAuction env params config ∧
        o = createAuctionOutcome s params config := by
  simp only [createAuction, requireAuth_bind_eq_ok_iff, unwrapOr_bind_eq_ok_iff,
    ensure_bind_eq_ok_iff, Except.bind_eq_ok_iff (x := checkFormat params),
    checkFormat_eq_ok_iff, Except.pure_eq_ok_iff]
  constructor
  · rintro ⟨h₁, config, hc, h₂, h₃, h₄, h₅, -, ⟨h₆, h₇, h₈⟩, rfl⟩
    exact ⟨config, hc, ⟨h₁, h₂, h₃, h₄, h₅, h₆, h₇, h₈⟩, rfl⟩
  · rintro ⟨config, hc, ⟨h₁, h₂, h₃, h₄, h₅, h₆, h₇, h₈⟩, rfl⟩
    exact ⟨h₁, config, hc, h₂, h₃, h₄, h₅, (), ⟨h₆, h₇, h₈⟩, rfl⟩

/-! ### Opening -/

/-- The record after an attestation. -/
def Auction.withAttestation (auction : Auction Address) (custodian : Address)
    (attestationHash : BytesN 32) : Auction Address :=
  { auction with
    item := .physical ⟨custodian, attestationHash⟩
    attested := true
    status := .active }

/-- What an attestation does. -/
def attestOutcome (s : Storage Address) (auctionId : U64) (auction : Auction Address)
    (custodian : Address) (attestationHash : BytesN 32) : Outcome Address where
  storage := s.setAuction auctionId (auction.withAttestation custodian attestationHash)
  events := [emitAttestationRecorded auctionId custodian]

/-- Only the custodian named in a physical item may attest it. -/
def checkCustodian (item : ItemType Address) (custodian : Address) : Except String Unit :=
  match item with
  | .physical item => ensure (custodian = item.custodian) "Not the designated custodian"
  | .digital _ => throw "Not a physical item"

/-- Attest that the custodian holds a physical item, which opens the auction. -/
def attestPhysicalItem (env : Env Address) (s : Storage Address) (auctionId : U64)
    (custodian : Address) (attestationHash : BytesN 32) : Except String (Outcome Address) := do
  requireAuth env custodian
  let auction ← unwrapOr "Auction not found" (s.auctions auctionId)
  checkCustodian auction.item custodian
  return attestOutcome s auctionId auction custodian attestationHash

theorem checkCustodian_eq_ok_iff {item : ItemType Address} {custodian : Address} {u : Unit} :
    checkCustodian item custodian = .ok u ↔
      ∃ i, item = .physical i ∧ custodian = i.custodian := by
  cases item with
  | digital i =>
    constructor
    · nofun
    · rintro ⟨_, h, _⟩
      cases h
  | physical i => simp [checkCustodian, ensure_eq_ok_iff]

/-- **`attest_physical_item` returns exactly for the designated custodian of a physical
item**, whatever the status of the auction. -/
theorem attestPhysicalItem_eq_ok_iff {env : Env Address} {s : Storage Address}
    {auctionId : U64} {custodian : Address} {attestationHash : BytesN 32}
    {o : Outcome Address} :
    attestPhysicalItem env s auctionId custodian attestationHash = .ok o ↔
      ∃ auction, s.auctions auctionId = some auction ∧
        (env.auth custodian = true ∧
          ∃ item, auction.item = .physical item ∧ custodian = item.custodian) ∧
        o = attestOutcome s auctionId auction custodian attestationHash := by
  simp only [attestPhysicalItem, requireAuth_bind_eq_ok_iff, unwrapOr_bind_eq_ok_iff,
    Except.bind_eq_ok_iff (x := checkCustodian _ _), checkCustodian_eq_ok_iff,
    Except.pure_eq_ok_iff]
  constructor
  · rintro ⟨h₁, auction, ha, -, h₂, rfl⟩
    exact ⟨auction, ha, ⟨h₁, h₂⟩, rfl⟩
  · rintro ⟨auction, ha, ⟨h₁, h₂⟩, rfl⟩
    exact ⟨h₁, auction, ha, (), h₂, rfl⟩

/-- What activation does. -/
def activateOutcome (s : Storage Address) (auctionId : U64) (auction : Auction Address) :
    Outcome Address where
  storage := s.setAuction auctionId { auction with status := .active }

/-- A physical item has to be attested. -/
def checkAttested (auction : Auction Address) : Except String Unit :=
  match auction.item with
  | .digital _ => pure ()
  | .physical _ => ensure (auction.attested = true) "Physical item not yet attested"

/-- Open an auction whose item needs no attestation, or has it. -/
def activateAuction (env : Env Address) (s : Storage Address) (auctionId : U64) :
    Except String (Outcome Address) := do
  let auction ← unwrapOr "Auction not found" (s.auctions auctionId)
  requireAuth env auction.seller
  checkAttested auction
  ensure (auction.status = .created) "Auction not in Created state"
  let now := env.timestamp
  ensure (now ≥ auction.startTime) "Cannot activate before start time"
  return activateOutcome s auctionId auction

/-- **What an activation has to meet.** -/
structure AcceptsActivation (env : Env Address) (auction : Auction Address) : Prop where
  auth : env.auth auction.seller = true
  attested : ∀ item, auction.item = .physical item → auction.attested = true
  status : auction.status = .created
  started : auction.startTime ≤ env.timestamp

omit [DecidableEq Address] in
theorem checkAttested_eq_ok_iff {auction : Auction Address} {u : Unit} :
    checkAttested auction = .ok u ↔
      ∀ item, auction.item = .physical item → auction.attested = true := by
  unfold checkAttested
  cases auction.item <;> simp [Except.pure_eq_ok_iff, ensure_eq_ok_iff]

omit [DecidableEq Address] in
/-- **`activate_auction` returns exactly on an acceptable activation.** -/
theorem activateAuction_eq_ok_iff {env : Env Address} {s : Storage Address} {auctionId : U64}
    {o : Outcome Address} :
    activateAuction env s auctionId = .ok o ↔
      ∃ auction, s.auctions auctionId = some auction ∧ AcceptsActivation env auction ∧
        o = activateOutcome s auctionId auction := by
  simp only [activateAuction, requireAuth_bind_eq_ok_iff, unwrapOr_bind_eq_ok_iff,
    ensure_bind_eq_ok_iff, Except.bind_eq_ok_iff (x := checkAttested _),
    checkAttested_eq_ok_iff, Except.pure_eq_ok_iff]
  constructor
  · rintro ⟨auction, ha, h₁, -, h₂, h₃, h₄, rfl⟩
    exact ⟨auction, ha, ⟨h₁, h₂, h₃, h₄⟩, rfl⟩
  · rintro ⟨auction, ha, ⟨h₁, h₂, h₃, h₄⟩, rfl⟩
    exact ⟨auction, ha, h₁, (), h₂, h₃, h₄, rfl⟩

/-! ### Cancelling and approving -/

/-- What a cancellation does. -/
def cancelOutcome (s : Storage Address) (auctionId : U64) (auction : Auction Address) :
    Outcome Address where
  storage := s.setAuction auctionId { auction with status := .cancelled }
  events := [emitAuctionCancelled auctionId auction.seller]

/-- Cancel an auction. -/
def cancelAuction (env : Env Address) (s : Storage Address) (auctionId : U64) :
    Except String (Outcome Address) := do
  let auction ← unwrapOr "Auction not found" (s.auctions auctionId)
  requireAuth env auction.seller
  ensure (auction.status = .created ∨ auction.status = .active)
    "Cannot cancel auction in current state"
  ensure (auction.highestBidder = none) "Bids already placed"
  return cancelOutcome s auctionId auction

/-- **What a cancellation has to meet.** -/
structure AcceptsCancellation (env : Env Address) (auction : Auction Address) : Prop where
  auth : env.auth auction.seller = true
  status : auction.status = .created ∨ auction.status = .active
  no_bidder : auction.highestBidder = none

omit [DecidableEq Address] in
/-- **`cancel_auction` returns exactly on an acceptable cancellation.** -/
theorem cancelAuction_eq_ok_iff {env : Env Address} {s : Storage Address} {auctionId : U64}
    {o : Outcome Address} :
    cancelAuction env s auctionId = .ok o ↔
      ∃ auction, s.auctions auctionId = some auction ∧ AcceptsCancellation env auction ∧
        o = cancelOutcome s auctionId auction := by
  simp only [cancelAuction, requireAuth_bind_eq_ok_iff, unwrapOr_bind_eq_ok_iff,
    ensure_bind_eq_ok_iff, Except.pure_eq_ok_iff]
  constructor
  · rintro ⟨auction, ha, h₁, h₂, h₃, rfl⟩
    exact ⟨auction, ha, ⟨h₁, h₂, h₃⟩, rfl⟩
  · rintro ⟨auction, ha, ⟨h₁, h₂, h₃⟩, rfl⟩
    exact ⟨auction, ha, h₁, h₂, h₃, rfl⟩

/-- Only a digital item can be approved. -/
def digitalItem : ItemType Address → Except String (DigitalItem Address)
  | .digital d => pure d
  | .physical _ => throw "Cannot approve physical item as NFT"

/-- What an approval does. -/
def approveOutcome (env : Env Address) (s : Storage Address) (auctionId : U64)
    (auction : Auction Address) (digital : DigitalItem Address) : Outcome Address where
  storage := s
  events := [emitNftApproved auctionId digital.nftContract digital.tokenId]
  calls := [.approve digital.nftContract auction.seller env.currentContractAddress (.of 1)
    (env.sequence.saturatingAdd (.of 34560))]

/-- Approve the contract to transfer the item on the seller's behalf. -/
def approveNftTransfer (env : Env Address) (s : Storage Address) (auctionId : U64) :
    Except String (Outcome Address) := do
  let auction ← unwrapOr "Auction not found" (s.auctions auctionId)
  requireAuth env auction.seller
  let digital ← digitalItem auction.item
  ensure (auction.status = .created ∨ auction.status = .active)
    "Auction must be Created or Active to approve transfer"
  return approveOutcome env s auctionId auction digital

omit [DecidableEq Address] in
theorem digitalItem_eq_ok_iff {item : ItemType Address} {d : DigitalItem Address} :
    digitalItem item = .ok d ↔ item = .digital d := by
  cases item with
  | digital i => simp [digitalItem, Except.pure_eq_ok_iff]
  | physical i => exact ⟨nofun, nofun⟩

omit [DecidableEq Address] in
/-- **`approve_nft_transfer` returns exactly for the seller of a digital item that has not
been sold.** -/
theorem approveNftTransfer_eq_ok_iff {env : Env Address} {s : Storage Address}
    {auctionId : U64} {o : Outcome Address} :
    approveNftTransfer env s auctionId = .ok o ↔
      ∃ auction digital, s.auctions auctionId = some auction ∧
        (env.auth auction.seller = true ∧ auction.item = .digital digital ∧
          (auction.status = .created ∨ auction.status = .active)) ∧
        o = approveOutcome env s auctionId auction digital := by
  simp only [approveNftTransfer, requireAuth_bind_eq_ok_iff, unwrapOr_bind_eq_ok_iff,
    ensure_bind_eq_ok_iff, Except.bind_eq_ok_iff (x := digitalItem _), digitalItem_eq_ok_iff,
    Except.pure_eq_ok_iff]
  constructor
  · rintro ⟨auction, ha, h₁, digital, h₂, h₃, rfl⟩
    exact ⟨auction, digital, ha, ⟨h₁, h₂, h₃⟩, rfl⟩
  · rintro ⟨auction, digital, ha, ⟨h₁, h₂, h₃⟩, rfl⟩
    exact ⟨auction, ha, h₁, digital, h₂, h₃, rfl⟩

end UrithiBidz
