import UrithiBidz.Contract.Env

/-!
# Sealed-bid auctions

Commit and reveal (`sealed_bid.rs`). In the first phase a bidder hands in a keyed hash
of the bid and escrows collateral; in the second the bidder reveals the bid and the key.
A deposit that was never revealed can be taken back once the second phase is over, and
closing the auction picks the highest revealed bid and credits the others.

The four entry points read different deadlines and different keys, and none of them
reads everything: a reveal looks neither at the status of the auction nor at the amount
that was escrowed. As for the other formats, each has a structure that says what it
accepts and a theorem that says it returns exactly then.
-/

namespace UrithiBidz

variable {Address : Type}

/-! ### The commitment -/

/-- HMAC-SHA-256 as the contract computes it. -/
def hmacSha256 (env : Env Address) (key : BytesN 32) (message : List UInt8) : BytesN 32 :=
  let keyPadded := key.bytes ++ List.replicate (64 - 32) 0
  let inner := keyPadded.map (· ^^^ 0x36) ++ message
  let innerHash := env.sha256 inner
  let outer := keyPadded.map (· ^^^ 0x5c) ++ innerHash.bytes
  env.sha256 outer

/-- The message a commitment authenticates: amount, auction, bidder. The text of the
bidder's address goes through a buffer of 64 bytes. -/
def buildCommitmentMessage (env : Env Address) (bidAmount : I128) (auctionId : U64)
    (bidder : Address) : List UInt8 :=
  beBytes 16 bidAmount.val ++ beBytes 8 auctionId.val ++ (env.addressToString bidder).take 64

/-! ### Committing -/

/-- The commitment record of an accepted commitment. -/
def commitmentRecord (env : Env Address) (bidder : Address) (commitment : BytesN 32)
    (bidAmount : I128) : BidCommitment Address :=
  ⟨bidder, commitment, bidAmount, env.timestamp⟩

/-- What a commitment that is accepted does. -/
def commitBidOutcome [DecidableEq Address] (env : Env Address) (s : Storage Address)
    (auctionId : U64) (auction : Auction Address) (bidder : Address) (commitment : BytesN 32)
    (bidAmount : I128) : Outcome Address where
  storage := (s.setCommitment auctionId bidder
      (some (commitmentRecord env bidder commitment bidAmount))).setAuction auctionId
    { auction with bidderCount := auction.bidderCount.wrappingAdd 1 }
  events := [emitCommitmentStored auctionId bidder]
  calls := [lockBid env auction.paymentToken bidder bidAmount]

/-- Commit to a bid. -/
def commitBid [DecidableEq Address] (env : Env Address) (s : Storage Address) (auctionId : U64)
    (bidder : Address) (commitment : BytesN 32) (bidAmount : I128) :
    Except String (Outcome Address) := do
  requireAuth env bidder
  let auction ← unwrapOr s!"Auction not found: {auctionId.val}" (s.auctions auctionId)
  ensure (auction.format = .sealedBid) "Not a sealed-bid auction"
  ensure (auction.status = .active) "Auction not active"
  let now := env.timestamp
  ensure (now < auction.commitDeadline) "Commit phase has ended"
  ensure (now ≥ auction.startTime) "Auction not yet started"
  ensure (bidAmount ≥ auction.reservePrice) "Bid below reserve price"
  ensure (auction.maxBidders > 0 → auction.bidderCount < auction.maxBidders)
    "Maximum number of bidders reached"
  ensure (s.commitments auctionId bidder = none) "Bidder has already committed to this auction"
  return commitBidOutcome env s auctionId auction bidder commitment bidAmount

/-- **What a commitment has to meet.** -/
structure AcceptsCommit (env : Env Address) (auction : Auction Address) (bidder : Address)
    (bidAmount : I128) : Prop where
  auth : env.auth bidder = true
  format : auction.format = .sealedBid
  status : auction.status = .active
  before_deadline : env.timestamp < auction.commitDeadline
  started : auction.startTime ≤ env.timestamp
  reserve : auction.reservePrice ≤ bidAmount
  room : auction.maxBidders > 0 → auction.bidderCount < auction.maxBidders

/-- **`commit_bid` returns exactly on an acceptable commitment**, the bidder's first. -/
theorem commitBid_eq_ok_iff [DecidableEq Address] {env : Env Address} {s : Storage Address}
    {auctionId : U64} {bidder : Address} {commitment : BytesN 32} {bidAmount : I128}
    {o : Outcome Address} :
    commitBid env s auctionId bidder commitment bidAmount = .ok o ↔
      ∃ auction, s.auctions auctionId = some auction ∧
        (AcceptsCommit env auction bidder bidAmount ∧ s.commitments auctionId bidder = none) ∧
        o = commitBidOutcome env s auctionId auction bidder commitment bidAmount := by
  simp only [commitBid, requireAuth_bind_eq_ok_iff, unwrapOr_bind_eq_ok_iff,
    ensure_bind_eq_ok_iff, Except.pure_eq_ok_iff]
  constructor
  · rintro ⟨h₁, auction, ha, h₂, h₃, h₄, h₅, h₆, h₇, h₈, rfl⟩
    exact ⟨auction, ha, ⟨⟨h₁, h₂, h₃, h₄, h₅, h₆, h₇⟩, h₈⟩, rfl⟩
  · rintro ⟨auction, ha, ⟨⟨h₁, h₂, h₃, h₄, h₅, h₆, h₇⟩, h₈⟩, rfl⟩
    exact ⟨h₁, auction, ha, h₂, h₃, h₄, h₅, h₆, h₇, h₈, rfl⟩

/-! ### Revealing -/

/-- The record after a reveal. -/
def Auction.withReveal (auction : Auction Address) (entry : SealedBidEntry Address) :
    Auction Address :=
  { auction with revealedBids := auction.revealedBids ++ [entry] }

/-- What a reveal that is accepted does. -/
def revealBidOutcome [DecidableEq Address] (env : Env Address) (s : Storage Address)
    (auctionId : U64) (auction : Auction Address) (bidder : Address) (bidAmount : I128) :
    Outcome Address :=
  let entry : SealedBidEntry Address := ⟨bidder, bidAmount, env.timestamp⟩
  { storage := (s.setAuction auctionId (auction.withReveal entry)).setRevealed auctionId bidder
      entry
    events := [emitBidRevealed auctionId bidder bidAmount] }

/-- Reveal a bid. -/
def revealBid [DecidableEq Address] (env : Env Address) (s : Storage Address) (auctionId : U64)
    (bidder : Address) (bidAmount : I128) (salt : BytesN 32) :
    Except String (Outcome Address) := do
  requireAuth env bidder
  let auction ← unwrapOr s!"Auction not found: {auctionId.val}" (s.auctions auctionId)
  ensure (auction.format = .sealedBid) "Not a sealed-bid auction"
  let now := env.timestamp
  ensure (now ≥ auction.commitDeadline) "Commit phase not yet ended"
  ensure (now < auction.revealDeadline) "Reveal phase has ended"
  let stored ← unwrapOr "No commitment found for bidder" (s.commitments auctionId bidder)
  let message := buildCommitmentMessage env bidAmount auctionId bidder
  let computed := hmacSha256 env salt message
  ensure (computed = stored.commitment) "Commitment verification failed"
  ensure (s.revealed auctionId bidder = none) "Bid already revealed"
  return revealBidOutcome env s auctionId auction bidder bidAmount

/-- **What a reveal has to meet.** -/
structure AcceptsReveal (env : Env Address) (auctionId : U64) (auction : Auction Address)
    (stored : BidCommitment Address) (bidder : Address) (bidAmount : I128)
    (salt : BytesN 32) : Prop where
  auth : env.auth bidder = true
  format : auction.format = .sealedBid
  commit_over : auction.commitDeadline ≤ env.timestamp
  before_deadline : env.timestamp < auction.revealDeadline
  verified : hmacSha256 env salt (buildCommitmentMessage env bidAmount auctionId bidder) =
    stored.commitment

/-- **`reveal_bid` returns exactly on an acceptable reveal** of a stored commitment, the
bidder's first. -/
theorem revealBid_eq_ok_iff [DecidableEq Address] {env : Env Address} {s : Storage Address}
    {auctionId : U64} {bidder : Address} {bidAmount : I128} {salt : BytesN 32}
    {o : Outcome Address} :
    revealBid env s auctionId bidder bidAmount salt = .ok o ↔
      ∃ auction stored, s.auctions auctionId = some auction ∧
        s.commitments auctionId bidder = some stored ∧
        (AcceptsReveal env auctionId auction stored bidder bidAmount salt ∧
          s.revealed auctionId bidder = none) ∧
        o = revealBidOutcome env s auctionId auction bidder bidAmount := by
  simp only [revealBid, requireAuth_bind_eq_ok_iff, unwrapOr_bind_eq_ok_iff,
    ensure_bind_eq_ok_iff, Except.pure_eq_ok_iff]
  constructor
  · rintro ⟨h₁, auction, ha, h₂, h₃, h₄, stored, hs, h₅, h₆, rfl⟩
    exact ⟨auction, stored, ha, hs, ⟨⟨h₁, h₂, h₃, h₄, h₅⟩, h₆⟩, rfl⟩
  · rintro ⟨auction, stored, ha, hs, ⟨⟨h₁, h₂, h₃, h₄, h₅⟩, h₆⟩, rfl⟩
    exact ⟨h₁, auction, ha, h₂, h₃, h₄, stored, hs, h₅, h₆, rfl⟩

/-! ### Taking back a deposit -/

/-- The record after a deposit was taken back. -/
def Auction.withoutBidder (auction : Auction Address) : Auction Address :=
  { auction with
    bidderCount :=
      if auction.bidderCount > 0 then auction.bidderCount.wrappingSub 1
      else auction.bidderCount }

theorem Auction.val_bidderCount_withoutBidder {auction : Auction Address}
    (h : 0 < auction.bidderCount.val) :
    auction.withoutBidder.bidderCount.val = auction.bidderCount.val - 1 := by
  have hhi := auction.bidderCount.le_hi
  have hcounted : auction.bidderCount > 0 := h
  change (if auction.bidderCount > 0 then auction.bidderCount.wrappingSub 1
    else auction.bidderCount).val = _
  rw [if_pos hcounted, Ranged.val_wrappingSub_of_le (by simp; omega) (by simp; omega),
    U64.val_one]

theorem Auction.bidderCount_withoutBidder_le (auction : Auction Address) :
    auction.withoutBidder.bidderCount ≤ auction.bidderCount := by
  rw [Ranged.le_iff]
  by_cases h : auction.bidderCount > 0
  · rw [val_bidderCount_withoutBidder h]
    omega
  · change (if auction.bidderCount > 0 then auction.bidderCount.wrappingSub 1
      else auction.bidderCount).val ≤ _
    rw [if_neg h]

/-- What taking back a deposit does. -/
def refundUnrevealedOutcome [DecidableEq Address] (env : Env Address) (s : Storage Address)
    (auctionId : U64) (auction : Auction Address) (stored : BidCommitment Address)
    (bidder : Address) : Outcome Address :=
  let refundAmount := stored.amount
  { storage := (s.setCommitment auctionId bidder none).setAuction auctionId auction.withoutBidder
    events := [emitUnrevealedRefunded auctionId bidder refundAmount]
    calls := [refundBid env auction.paymentToken bidder refundAmount] }

/-- Take back a deposit that was never revealed. -/
def refundUnrevealed [DecidableEq Address] (env : Env Address) (s : Storage Address)
    (auctionId : U64) (bidder : Address) : Except String (Outcome Address) := do
  requireAuth env bidder
  let auction ← unwrapOr s!"Auction not found: {auctionId.val}" (s.auctions auctionId)
  ensure (auction.format = .sealedBid) "Not a sealed-bid auction"
  let now := env.timestamp
  ensure (now ≥ auction.revealDeadline) "Reveal phase not yet ended"
  let stored ← unwrapOr "No commitment found for bidder" (s.commitments auctionId bidder)
  ensure (s.revealed auctionId bidder = none)
    "Bid already revealed — withdraw refund instead if outbid"
  return refundUnrevealedOutcome env s auctionId auction stored bidder

/-- **What taking back a deposit has to meet.** -/
structure AcceptsRefund (env : Env Address) (auction : Auction Address) (bidder : Address) :
    Prop where
  auth : env.auth bidder = true
  format : auction.format = .sealedBid
  reveal_over : auction.revealDeadline ≤ env.timestamp

/-- **`refund_unrevealed` returns exactly once the reveal phase is over**, on a deposit that
is there and was not revealed. -/
theorem refundUnrevealed_eq_ok_iff [DecidableEq Address] {env : Env Address}
    {s : Storage Address} {auctionId : U64} {bidder : Address} {o : Outcome Address} :
    refundUnrevealed env s auctionId bidder = .ok o ↔
      ∃ auction stored, s.auctions auctionId = some auction ∧
        s.commitments auctionId bidder = some stored ∧
        (AcceptsRefund env auction bidder ∧ s.revealed auctionId bidder = none) ∧
        o = refundUnrevealedOutcome env s auctionId auction stored bidder := by
  simp only [refundUnrevealed, requireAuth_bind_eq_ok_iff, unwrapOr_bind_eq_ok_iff,
    ensure_bind_eq_ok_iff, Except.pure_eq_ok_iff]
  constructor
  · rintro ⟨h₁, auction, ha, h₂, h₃, stored, hs, h₄, rfl⟩
    exact ⟨auction, stored, ha, hs, ⟨⟨h₁, h₂, h₃⟩, h₄⟩, rfl⟩
  · rintro ⟨auction, stored, ha, hs, ⟨⟨h₁, h₂, h₃⟩, h₄⟩, rfl⟩
    exact ⟨h₁, auction, ha, h₂, h₃, stored, hs, h₄, rfl⟩

/-! ### Finalizing -/

/-- The entry with the highest amount, the earliest of those that tie. -/
def highestEntry (entries : List (SealedBidEntry Address)) : Option (SealedBidEntry Address) :=
  entries.foldl (fun highest entry => match highest with
    | none => some entry
    | some current => if entry.amount > current.amount then some entry else some current) none

/-- The scan is the library's: the first of the entries with the greatest amount. -/
theorem highestEntry_eq_argmax (entries : List (SealedBidEntry Address)) :
    highestEntry entries = entries.argmax (·.amount.val) := by
  refine congrArg (fun f => entries.foldl f none) ?_
  funext highest entry
  cases highest <;> rfl

/-- **The highest entry is one of the entries.** -/
theorem mem_of_highestEntry {entries : List (SealedBidEntry Address)}
    {e : SealedBidEntry Address} (h : highestEntry entries = some e) : e ∈ entries := by
  rw [highestEntry_eq_argmax] at h
  exact List.argmax_mem h

/-- **There is a highest entry**, if there is any. -/
theorem exists_highestEntry {entries : List (SealedBidEntry Address)} (h : entries ≠ []) :
    ∃ e, highestEntry entries = some e := by
  refine Option.ne_none_iff_exists'.mp fun hnone => h ?_
  rw [highestEntry_eq_argmax] at hnone
  exact List.argmax_eq_none.mp hnone

/-- **The highest entry is the first of the highest**: those before it are lower, and those
after it are no higher. -/
theorem exists_split_of_highestEntry [DecidableEq Address]
    {entries : List (SealedBidEntry Address)} {winner : SealedBidEntry Address}
    (h : highestEntry entries = some winner) :
    ∃ past rest, entries = past ++ winner :: rest ∧ (∀ e ∈ past, e.amount < winner.amount) ∧
      ∀ e ∈ rest, e.amount ≤ winner.amount := by
  rw [highestEntry_eq_argmax] at h
  obtain ⟨hmem, hmax, hfirst⟩ := List.mem_argmax_iff.mp h
  obtain ⟨past, rest, rfl, hnew⟩ := List.eq_append_cons_of_mem hmem
  refine ⟨past, rest, rfl, ?_, ?_⟩
  · intro e he
    rw [Ranged.lt_iff]
    by_contra hge
    -- an entry as high as the winner would have been found before it
    have hidx := hfirst e (List.mem_append_left _ he) (not_lt.mp hge)
    rw [List.idxOf_append_of_notMem hnew, List.idxOf_cons_self,
      List.idxOf_append_of_mem he] at hidx
    have hlt := List.idxOf_lt_length_of_mem he
    omega
  · intro e he
    exact hmax e (List.mem_append_right _ (List.mem_cons_of_mem _ he))

/-- Credit one entry, unless it is the winner's. -/
def creditLoser [DecidableEq Address] (auctionId : U64) (winner : SealedBidEntry Address)
    (acc : Storage Address × List (Event Address)) (entry : SealedBidEntry Address) :
    Storage Address × List (Event Address) :=
  if entry.bidder ≠ winner.bidder then
    let existing := acc.1.refund auctionId entry.bidder
    let updated := existing.saturatingAdd entry.amount
    (acc.1.setRefund auctionId entry.bidder (some updated),
      acc.2 ++ [emitBidOutbid auctionId entry.bidder entry.amount])
  else acc

/-- The record after finalization. -/
def Auction.withWinner (auction : Auction Address) (winner : SealedBidEntry Address) :
    Auction Address :=
  { auction with
    highestBidder := some winner.bidder
    highestBid := winner.amount
    status := .ended }

/-- What finalizing does once there is a winner. -/
def finalizeOutcome [DecidableEq Address] (s : Storage Address) (auctionId : U64)
    (auction : Auction Address) (winner : SealedBidEntry Address) : Outcome Address :=
  let (credited, events) := auction.revealedBids.foldl (creditLoser auctionId winner) (s, [])
  { storage := credited.setAuction auctionId (auction.withWinner winner)
    events := events ++ [emitAuctionClosed auctionId winner.bidder winner.amount .sealedBid] }

/-- Pick the winner of a sealed-bid auction and credit the others. -/
def finalizeSealedAuction [DecidableEq Address] (env : Env Address) (s : Storage Address)
    (auctionId : U64) : Except String (Outcome Address) := do
  let auction ← unwrapOr s!"Auction not found: {auctionId.val}" (s.auctions auctionId)
  ensure (auction.format = .sealedBid) "Not a sealed-bid auction"
  ensure (auction.status = .active) "Auction not active"
  let now := env.timestamp
  ensure (now ≥ auction.revealDeadline) "Reveal phase not yet ended"
  let winner ← unwrapOr "No valid bids revealed" (highestEntry auction.revealedBids)
  return finalizeOutcome s auctionId auction winner

/-- **`finalize_sealed_auction` returns exactly on an active auction past its reveal
phase with a revealed bid.** -/
theorem finalizeSealedAuction_eq_ok_iff [DecidableEq Address] {env : Env Address}
    {s : Storage Address} {auctionId : U64} {o : Outcome Address} :
    finalizeSealedAuction env s auctionId = .ok o ↔
      ∃ auction winner, s.auctions auctionId = some auction ∧
        (auction.format = .sealedBid ∧ auction.status = .active ∧
          auction.revealDeadline ≤ env.timestamp) ∧
        highestEntry auction.revealedBids = some winner ∧
        o = finalizeOutcome s auctionId auction winner := by
  simp only [finalizeSealedAuction, unwrapOr_bind_eq_ok_iff, ensure_bind_eq_ok_iff,
    Except.pure_eq_ok_iff]
  constructor
  · rintro ⟨auction, ha, h₁, h₂, h₃, winner, hw, rfl⟩
    exact ⟨auction, winner, ha, ⟨h₁, h₂, h₃⟩, hw, rfl⟩
  · rintro ⟨auction, winner, ha, ⟨h₁, h₂, h₃⟩, hw, rfl⟩
    exact ⟨auction, ha, h₁, h₂, h₃, winner, hw, rfl⟩

end UrithiBidz
