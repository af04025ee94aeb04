import UrithiBidz.Contract.Lifecycle

/-!
# Refunds, closing and settlement

The rest of `lib.rs`: withdrawing a claimable refund, closing an auction past its
deadline, settling a closed one and changing the platform's settings.

Closing never panics on a record it has nothing to do with: it returns silently before
the deadline and on an auction that is over. When it does close, the outcome is one of
four, which `UrithiBidz.Closes` names: an English auction with a bidder is won, a sealed
one with a revealed bid is finalized, everything else is cancelled.
-/

namespace UrithiBidz

variable {Address : Type} [DecidableEq Address]

/-! ### Withdrawing a refund -/

/-- What a withdrawal does. -/
def withdrawRefundOutcome (env : Env Address) (s : Storage Address) (auctionId : U64)
    (auction : Auction Address) (bidder : Address) : Outcome Address :=
  let refundAmount := s.refund auctionId bidder
  { storage := s.setRefund auctionId bidder none
    events := [emitBidRefunded auctionId bidder refundAmount]
    calls := [refundBid env auction.paymentToken bidder refundAmount]
    value := .i128 refundAmount }

/-- Withdraw a claimable refund. -/
def withdrawRefund (env : Env Address) (s : Storage Address) (auctionId : U64)
    (bidder : Address) : Except String (Outcome Address) := do
  requireAuth env bidder
  ensure (s.refund auctionId bidder > 0) "No claimable refund"
  let auction ← unwrapOr "Auction not found" (s.auctions auctionId)
  return withdrawRefundOutcome env s auctionId auction bidder

/-- **`withdraw_refund` returns exactly when there is something to withdraw.** -/
theorem withdrawRefund_eq_ok_iff {env : Env Address} {s : Storage Address} {auctionId : U64}
    {bidder : Address} {o : Outcome Address} :
    withdrawRefund env s auctionId bidder = .ok o ↔
      ∃ auction, s.auctions auctionId = some auction ∧
        (env.auth bidder = true ∧ 0 < s.refund auctionId bidder) ∧
        o = withdrawRefundOutcome env s auctionId auction bidder := by
  simp only [withdrawRefund, requireAuth_bind_eq_ok_iff, unwrapOr_bind_eq_ok_iff,
    ensure_bind_eq_ok_iff, Except.pure_eq_ok_iff]
  constructor
  · rintro ⟨h₁, h₂, auction, ha, rfl⟩
    exact ⟨auction, ha, ⟨h₁, h₂⟩, rfl⟩
  · rintro ⟨auction, ha, ⟨h₁, h₂⟩, rfl⟩
    exact ⟨h₁, h₂, auction, ha, rfl⟩

/-! ### Closing -/

/-- What closing without a winner does. -/
def closeCancelledOutcome (s : Storage Address) (auctionId : U64) (auction : Auction Address) :
    Outcome Address where
  storage := s.setAuction auctionId { auction with status := .cancelled }
  events := [emitAuctionCancelled auctionId auction.seller]

/-- What closing an English auction that has a bidder does. -/
def closeWonOutcome (s : Storage Address) (auctionId : U64) (auction : Auction Address)
    (winner : Address) : Outcome Address where
  storage := s.setAuction auctionId { auction with status := .ended }
  events := [emitAuctionClosed auctionId winner auction.highestBid .english]

/-- Close an auction. -/
def closeAuction (env : Env Address) (s : Storage Address) (auctionId : U64) :
    Except String (Outcome Address) := do
  let auction ← unwrapOr "Auction not found" (s.auctions auctionId)
  if auction.status = .ended ∨ auction.status = .settled ∨ auction.status = .cancelled then
    return { storage := s }
  else if env.timestamp < auction.endTime then
    return { storage := s }
  else if auction.status ≠ .active ∧ auction.status ≠ .created then
    return { storage := s }
  else
    match auction.format with
    | .english =>
      match auction.highestBidder with
      | some winner => return closeWonOutcome s auctionId auction winner
      | none => return closeCancelledOutcome s auctionId auction
    | .dutch => return closeCancelledOutcome s auctionId auction
    | .sealedBid =>
      if auction.revealedBids = [] then return closeCancelledOutcome s auctionId auction
      else finalizeSealedAuction env s auctionId

/-- **How a call that closes an auction can go.** -/
inductive Closes (env : Env Address) (s : Storage Address) (auctionId : U64)
    (auction : Auction Address) : Outcome Address → Prop
  /-- The auction is over, or its deadline has not passed: nothing happens. -/
  | idle (h : auction.status ∉ [.created, .active] ∨ env.timestamp < auction.endTime) :
      Closes env s auctionId auction { storage := s }
  /-- An English auction with a bidder is won. -/
  | won {winner : Address} (hs : auction.status ∈ [.created, .active])
      (ht : auction.endTime ≤ env.timestamp) (hf : auction.format = .english)
      (hw : auction.highestBidder = some winner) :
      Closes env s auctionId auction (closeWonOutcome s auctionId auction winner)
  /-- There is nobody to sell to. -/
  | unsold (hs : auction.status ∈ [.created, .active]) (ht : auction.endTime ≤ env.timestamp)
      (hf : auction.format = .english → auction.highestBidder = none)
      (hr : auction.format = .sealedBid → auction.revealedBids = []) :
      Closes env s auctionId auction (closeCancelledOutcome s auctionId auction)
  /-- A sealed auction with a revealed bid is finalized. -/
  | finalized {winner : SealedBidEntry Address} (hs : auction.status = .active)
      (ht : auction.endTime ≤ env.timestamp) (hf : auction.format = .sealedBid)
      (hd : auction.revealDeadline ≤ env.timestamp)
      (hw : highestEntry auction.revealedBids = some winner) :
      Closes env s auctionId auction (finalizeOutcome s auctionId auction winner)

/-- **A call of `close_auction` that returns closes the auction, one way or another.** -/
theorem closes_of_closeAuction {env : Env Address} {s : Storage Address} {auctionId : U64}
    {o : Outcome Address} (h : closeAuction env s auctionId = .ok o) :
    ∃ auction, s.auctions auctionId = some auction ∧ Closes env s auctionId auction o := by
  simp only [closeAuction, unwrapOr_bind_eq_ok_iff] at h
  obtain ⟨auction, ha, h⟩ := h
  refine ⟨auction, ha, ?_⟩
  split at h
  · next hover =>
    rw [← Except.ok.inj h]
    -- it is over already
    refine .idle (Or.inl ?_)
    rcases hover with hs | hs | hs <;> simp [hs]
  · next hover =>
    split at h
    · next hnow =>
      rw [← Except.ok.inj h]
      -- its deadline is ahead
      exact .idle (Or.inr hnow)
    · next hnow =>
      have ht : auction.endTime ≤ env.timestamp := Ranged.not_lt_iff.mp hnow
      have hs : auction.status ∈ [AuctionStatus.created, .active] := by
        cases hstatus : auction.status <;> simp_all
      rw [if_neg (by cases hstatus : auction.status <;> simp_all)] at h
      cases hformat : auction.format with
      | english =>
        rw [hformat] at h
        cases hwinner : auction.highestBidder with
        | some winner =>
          rw [hwinner] at h
          rw [← Except.ok.inj h]
          exact .won hs ht hformat hwinner
        | none =>
          rw [hwinner] at h
          rw [← Except.ok.inj h]
          exact .unsold hs ht (fun _ => hwinner) fun hf => by simp [hformat] at hf
      | dutch =>
        rw [hformat] at h
        rw [← Except.ok.inj h]
        exact .unsold hs ht (fun hf => by simp [hformat] at hf) fun hf => by
          simp [hformat] at hf
      | sealedBid =>
        rw [hformat] at h
        dsimp only at h
        split at h
        · next hempty =>
          rw [← Except.ok.inj h]
          exact .unsold hs ht (fun hf => by simp [hformat] at hf) fun _ => hempty
        · -- revealed bids are left to the other function, which reads the record again
          obtain ⟨auction', winner, ha', ⟨-, hactive, hd⟩, hw, rfl⟩ :=
            finalizeSealedAuction_eq_ok_iff.mp h
          obtain rfl : auction = auction' := Option.some.inj (ha.symm.trans ha')
          exact .finalized hactive ht hformat hd hw

/-! ### Settling -/

/-- Move the item to the winner, when it is a token the contract may move. -/
def transferItem (env : Env Address) (auction : Auction Address) (winner : Address) :
    Except String (List (TokenCall Address)) :=
  match auction.item with
  | .digital item => do
    let allowance := env.allowance item.nftContract auction.seller env.currentContractAddress
    ensure (allowance ≥ Ranged.of 1) "Auction contract not approved to transfer NFT"
    return [.transfer item.nftContract auction.seller winner (I128.ofU64 item.tokenId)]
  | .physical _ => return []

/-- What settling does. -/
def settleOutcome (env : Env Address) (s : Storage Address) (auctionId : U64)
    (auction : Auction Address) (itemCalls : List (TokenCall Address)) (platformWallet : Address)
    (breakdown : ProceedsBreakdown) : Outcome Address where
  storage := s.setAuction auctionId { auction with status := .settled }
  events := [emitAuctionSettled auctionId breakdown.sellerAmount breakdown.royaltyAmount
    breakdown.platformFeeAmount]
  calls := itemCalls ++ distributeProceeds env auction.paymentToken auction.seller
    auction.originalCreator platformWallet breakdown

/-- Settle a closed auction. -/
def settleAuction (env : Env Address) (s : Storage Address) (auctionId : U64) :
    Except String (Outcome Address) := do
  let auction ← unwrapOr "Auction not found" (s.auctions auctionId)
  ensure (auction.status = .ended) "Auction not in Ended state"
  let winner ← unwrapOr "No winner" auction.highestBidder
  let itemCalls ← transferItem env auction winner
  let platformWallet ← unwrapOr "Platform wallet not configured" s.platformWallet
  let breakdown ← calculateSplit auction.highestBid auction.royaltyBps auction.platformFeeBps
  return settleOutcome env s auctionId auction itemCalls platformWallet breakdown

omit [DecidableEq Address] in
/-- **`settle_auction` returns exactly on an ended auction with a winner** whose item can be
moved and whose price can be split. -/
theorem settleAuction_eq_ok_iff {env : Env Address} {s : Storage Address} {auctionId : U64}
    {o : Outcome Address} :
    settleAuction env s auctionId = .ok o ↔
      ∃ auction, s.auctions auctionId = some auction ∧ auction.status = .ended ∧
        ∃ winner itemCalls platformWallet breakdown, auction.highestBidder = some winner ∧
          transferItem env auction winner = .ok itemCalls ∧
          s.platformWallet = some platformWallet ∧
          calculateSplit auction.highestBid auction.royaltyBps auction.platformFeeBps =
            .ok breakdown ∧
          o = settleOutcome env s auctionId auction itemCalls platformWallet breakdown := by
  simp only [settleAuction, unwrapOr_bind_eq_ok_iff, ensure_bind_eq_ok_iff,
    Except.bind_eq_ok_iff (x := transferItem _ _ _),
    Except.bind_eq_ok_iff (x := calculateSplit _ _ _), Except.pure_eq_ok_iff]
  constructor
  · rintro ⟨auction, ha, h₁, winner, hw, items, hi, wallet, hp, split, hs, rfl⟩
    exact ⟨auction, ha, h₁, winner, items, wallet, split, hw, hi, hp, hs, rfl⟩
  · rintro ⟨auction, ha, h₁, winner, items, wallet, split, hw, hi, hp, hs, rfl⟩
    exact ⟨auction, ha, h₁, winner, hw, items, hi, wallet, hp, split, hs, rfl⟩

omit [DecidableEq Address] in
theorem transferItem_eq_ok {env : Env Address} {auction : Auction Address} {winner : Address}
    {calls : List (TokenCall Address)} (h : transferItem env auction winner = .ok calls) :
    calls = [] ∨ ∃ item, auction.item = .digital item ∧
      calls = [.transfer item.nftContract auction.seller winner (I128.ofU64 item.tokenId)] := by
  unfold transferItem at h
  cases hitem : auction.item with
  | digital item =>
    rw [hitem] at h
    simp only [ensure_bind_eq_ok_iff, Except.pure_eq_ok_iff] at h
    exact Or.inr ⟨item, rfl, h.2.symm⟩
  | physical item =>
    rw [hitem] at h
    exact Or.inl (Except.ok.inj h).symm

/-! ### The platform's settings -/

/-- The settings after an update: what is not given stays. -/
def updatedConfig (config : PlatformConfig Address) (newFeeBps newMaxRoyaltyBps : Option U32)
    (paused : Option Bool) : PlatformConfig Address :=
  { config with
    defaultPlatformFeeBps := newFeeBps.getD config.defaultPlatformFeeBps
    maxRoyaltyBps := newMaxRoyaltyBps.getD config.maxRoyaltyBps
    paused := paused.getD config.paused }

/-- What an update does. -/
def updateConfigOutcome (s : Storage Address) (config : PlatformConfig Address) :
    Outcome Address where
  storage := { s with config := some config }

/-- Change the platform's settings. -/
def updateConfig (env : Env Address) (s : Storage Address) (admin : Address)
    (newFeeBps newMaxRoyaltyBps : Option U32) (paused : Option Bool) :
    Except String (Outcome Address) := do
  requireAuth env admin
  let config ← unwrapOr "Not initialized" s.config
  ensure (admin = config.admin) "Not the admin"
  return updateConfigOutcome s (updatedConfig config newFeeBps newMaxRoyaltyBps paused)

/-- **`update_config` returns exactly for the admin.** -/
theorem updateConfig_eq_ok_iff {env : Env Address} {s : Storage Address} {admin : Address}
    {fee maxRoyalty : Option U32} {paused : Option Bool} {o : Outcome Address} :
    updateConfig env s admin fee maxRoyalty paused = .ok o ↔
      ∃ config, s.config = some config ∧ (env.auth admin = true ∧ admin = config.admin) ∧
        o = updateConfigOutcome s (updatedConfig config fee maxRoyalty paused) := by
  simp only [updateConfig, requireAuth_bind_eq_ok_iff, unwrapOr_bind_eq_ok_iff,
    ensure_bind_eq_ok_iff, Except.pure_eq_ok_iff]
  constructor
  · rintro ⟨h₁, config, hc, h₂, rfl⟩
    exact ⟨config, hc, ⟨h₁, h₂⟩, rfl⟩
  · rintro ⟨config, hc, ⟨h₁, h₂⟩, rfl⟩
    exact ⟨h₁, config, hc, h₂, rfl⟩

end UrithiBidz
