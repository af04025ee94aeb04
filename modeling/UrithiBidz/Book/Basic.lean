import UrithiBidz.Contract.Call

/-!
# The book of one auction

Everything the contract stores under one auction id: the record and, for each address,
the commitment, the revealed bid and the claimable refund. A call works on one book and
leaves all others alone, so what happens to an auction over a run is a path of a small
transition system, `UrithiBidz.BookStep`, in which ids and the rest of the storage no
longer appear.

The steps are what the entry points can do once they return, with the conditions they
have checked. Placing a bid is two steps, according to whether somebody is displaced, and
closing is four. Most entry points only rewrite the status of the auction, and their steps
are gathered in `UrithiBidz.QuietStep`; the others move money, or promise it.
`UrithiBidz.invoke_book` is the refinement: a call that returns takes the book it is about
along a step, makes exactly the token calls of that step, and touches no other book.
-/

namespace UrithiBidz

variable {Address : Type}

variable (Address) in
/-- What is stored under one auction id. -/
@[ext] structure Book where
  /-- The record. -/
  auction : Option (Auction Address)
  /-- The commitments, by bidder. -/
  commitments : Address → Option (BidCommitment Address)
  /-- The revealed bids, by bidder. -/
  revealed : Address → Option (SealedBidEntry Address)
  /-- The claimable refunds, by bidder. -/
  refunds : Address → Option I128

/-- The book of an auction id. -/
def Storage.book (s : Storage Address) (id : U64) : Book Address :=
  ⟨s.auctions id, s.commitments id, s.revealed id, s.refunds id⟩

namespace Book

/-- The claimable refund of a bidder. -/
def refund (b : Book Address) (bidder : Address) : I128 := (b.refunds bidder).getD 0

/-- Write the record. -/
def setAuction (b : Book Address) (a : Auction Address) : Book Address :=
  { b with auction := some a }

@[simp] theorem setAuction_auction (b : Book Address) (a : Auction Address) :
    (b.setAuction a).auction = some a := rfl

@[simp] theorem setAuction_commitments (b : Book Address) (a : Auction Address) :
    (b.setAuction a).commitments = b.commitments := rfl

@[simp] theorem setAuction_revealed (b : Book Address) (a : Auction Address) :
    (b.setAuction a).revealed = b.revealed := rfl

@[simp] theorem setAuction_refunds (b : Book Address) (a : Auction Address) :
    (b.setAuction a).refunds = b.refunds := rfl

theorem setAuction_eq_self {b : Book Address} {a : Auction Address} (h : b.auction = some a) :
    b.setAuction a = b := by
  cases b
  rw [setAuction, ← h]

variable [DecidableEq Address]

/-- Write a commitment, or remove it. -/
def setCommitment (b : Book Address) (bidder : Address) (c : Option (BidCommitment Address)) :
    Book Address :=
  { b with commitments := Function.update b.commitments bidder c }

/-- Write a revealed bid. -/
def setRevealed (b : Book Address) (bidder : Address) (e : SealedBidEntry Address) :
    Book Address :=
  { b with revealed := Function.update b.revealed bidder (some e) }

/-- Write a claimable refund, or remove it. -/
def setRefund (b : Book Address) (bidder : Address) (amount : Option I128) : Book Address :=
  { b with refunds := Function.update b.refunds bidder amount }

@[simp] theorem setCommitment_auction (b : Book Address) (x : Address)
    (c : Option (BidCommitment Address)) : (b.setCommitment x c).auction = b.auction := rfl

@[simp] theorem setCommitment_commitments (b : Book Address) (x : Address)
    (c : Option (BidCommitment Address)) :
    (b.setCommitment x c).commitments = Function.update b.commitments x c := rfl

@[simp] theorem setCommitment_revealed (b : Book Address) (x : Address)
    (c : Option (BidCommitment Address)) : (b.setCommitment x c).revealed = b.revealed := rfl

@[simp] theorem setCommitment_refunds (b : Book Address) (x : Address)
    (c : Option (BidCommitment Address)) : (b.setCommitment x c).refunds = b.refunds := rfl

@[simp] theorem setRevealed_auction (b : Book Address) (x : Address)
    (e : SealedBidEntry Address) : (b.setRevealed x e).auction = b.auction := rfl

@[simp] theorem setRevealed_commitments (b : Book Address) (x : Address)
    (e : SealedBidEntry Address) : (b.setRevealed x e).commitments = b.commitments := rfl

@[simp] theorem setRevealed_revealed (b : Book Address) (x : Address)
    (e : SealedBidEntry Address) :
    (b.setRevealed x e).revealed = Function.update b.revealed x (some e) := rfl

@[simp] theorem setRevealed_refunds (b : Book Address) (x : Address)
    (e : SealedBidEntry Address) : (b.setRevealed x e).refunds = b.refunds := rfl

@[simp] theorem setRefund_auction (b : Book Address) (x : Address) (amount : Option I128) :
    (b.setRefund x amount).auction = b.auction := rfl

@[simp] theorem setRefund_commitments (b : Book Address) (x : Address) (amount : Option I128) :
    (b.setRefund x amount).commitments = b.commitments := rfl

@[simp] theorem setRefund_revealed (b : Book Address) (x : Address) (amount : Option I128) :
    (b.setRefund x amount).revealed = b.revealed := rfl

@[simp] theorem setRefund_refunds (b : Book Address) (x : Address) (amount : Option I128) :
    (b.setRefund x amount).refunds = Function.update b.refunds x amount := rfl

/-- Credit a bidder. -/
def credit (b : Book Address) (bidder : Address) (amount : I128) : Book Address :=
  b.setRefund bidder (some ((b.refund bidder).saturatingAdd amount))

theorem refund_credit_self (b : Book Address) (x : Address) (amount : I128) :
    (b.credit x amount).refund x = (b.refund x).saturatingAdd amount := by
  simp [refund, credit]

theorem refund_credit_of_ne (b : Book Address) {x y : Address} (h : y ≠ x) (amount : I128) :
    (b.credit x amount).refund y = b.refund y := by
  simp [refund, credit, h]

@[simp] theorem credit_auction (b : Book Address) (x : Address) (amount : I128) :
    (b.credit x amount).auction = b.auction := rfl

@[simp] theorem credit_commitments (b : Book Address) (x : Address) (amount : I128) :
    (b.credit x amount).commitments = b.commitments := rfl

@[simp] theorem credit_revealed (b : Book Address) (x : Address) (amount : I128) :
    (b.credit x amount).revealed = b.revealed := rfl

/-- Credit everybody who revealed, except the winner. -/
def creditLosers (b : Book Address) (winner : SealedBidEntry Address)
    (entries : List (SealedBidEntry Address)) : Book Address :=
  entries.foldl (fun b entry =>
    if entry.bidder ≠ winner.bidder then b.credit entry.bidder entry.amount else b) b

theorem creditLosers_frame (winner : SealedBidEntry Address)
    (entries : List (SealedBidEntry Address)) (b : Book Address) :
    (b.creditLosers winner entries).auction = b.auction ∧
      (b.creditLosers winner entries).commitments = b.commitments ∧
      (b.creditLosers winner entries).revealed = b.revealed := by
  induction entries generalizing b with
  | nil => exact ⟨rfl, rfl, rfl⟩
  | cons entry entries ih =>
    rw [creditLosers, List.foldl_cons]
    split
    · exact ih (b.credit entry.bidder entry.amount)
    · exact ih b

@[simp] theorem creditLosers_auction (b : Book Address) (winner : SealedBidEntry Address)
    (entries : List (SealedBidEntry Address)) :
    (b.creditLosers winner entries).auction = b.auction :=
  (creditLosers_frame winner entries b).1

@[simp] theorem creditLosers_commitments (b : Book Address) (winner : SealedBidEntry Address)
    (entries : List (SealedBidEntry Address)) :
    (b.creditLosers winner entries).commitments = b.commitments :=
  (creditLosers_frame winner entries b).2.1

@[simp] theorem creditLosers_revealed (b : Book Address) (winner : SealedBidEntry Address)
    (entries : List (SealedBidEntry Address)) :
    (b.creditLosers winner entries).revealed = b.revealed :=
  (creditLosers_frame winner entries b).2.2

end Book

/-! ### The steps of a book -/

variable [DecidableEq Address]

/-- **The steps that leave the bids alone**: the call, the record before and after, and the
token calls. They change the status and what is known of the item, or nothing. -/
inductive QuietStep (env : Env Address) (id : U64) :
    Call Address → Auction Address → Auction Address → List (TokenCall Address) → Prop
  | attest {a : Auction Address} {custodian : Address} {hash : BytesN 32}
      {item : PhysicalItem Address} (ha : env.auth custodian = true) (hi : a.item = .physical item)
      (hc : custodian = item.custodian) :
      QuietStep env id (.attestPhysicalItem id custodian hash) a (a.withAttestation custodian hash)
        []
  | activate {a : Auction Address} (ok : AcceptsActivation env a) :
      QuietStep env id (.activateAuction id) a { a with status := .active } []
  | cancel {a : Auction Address} (ok : AcceptsCancellation env a) :
      QuietStep env id (.cancelAuction id) a { a with status := .cancelled } []
  | approve {a : Auction Address} {calls : List (TokenCall Address)} {item : DigitalItem Address}
      (hi : a.item = .digital item)
      (hc : calls = [.approve item.nftContract a.seller env.currentContractAddress (.of 1)
        (env.sequence.saturatingAdd (.of 34560))]) :
      QuietStep env id (.approveNftTransfer id) a a calls
  | idle {a : Auction Address}
      (h : a.status ∉ [.created, .active] ∨ env.timestamp < a.endTime) :
      QuietStep env id (.closeAuction id) a a []
  | won {a : Auction Address} {winner : Address} (hs : a.status ∈ [.created, .active])
      (ht : a.endTime ≤ env.timestamp) (hf : a.format = .english)
      (hw : a.highestBidder = some winner) :
      QuietStep env id (.closeAuction id) a { a with status := .ended } []
  | unsold {a : Auction Address} (hs : a.status ∈ [.created, .active])
      (ht : a.endTime ≤ env.timestamp) (hf : a.format = .english → a.highestBidder = none)
      (hr : a.format = .sealedBid → a.revealedBids = []) :
      QuietStep env id (.closeAuction id) a { a with status := .cancelled } []
  | settle {a : Auction Address} {winner platformWallet : Address}
      {itemCalls : List (TokenCall Address)} {breakdown : ProceedsBreakdown}
      (hs : a.status = .ended) (hw : a.highestBidder = some winner)
      (hi : transferItem env a winner = .ok itemCalls)
      (hsplit : calculateSplit a.highestBid a.royaltyBps a.platformFeeBps = .ok breakdown) :
      QuietStep env id (.settleAuction id) a { a with status := .settled }
        (itemCalls ++ distributeProceeds env a.paymentToken a.seller a.originalCreator
          platformWallet breakdown)

/-- **The steps of a book**: the call, the book before and after, and the token calls that
go with the step. -/
inductive BookStep (env : Env Address) (id : U64) :
    Call Address → Book Address → Book Address → List (TokenCall Address) → Prop
  | create {b : Book Address} {params : CreateAuctionParams Address}
      {config : PlatformConfig Address} (hb : b.auction = none)
      (ok : AcceptsAuction env params config) :
      BookStep env id (.createAuction params) b
        (b.setAuction (newAuction params id config.defaultPlatformFeeBps)) []
  | quiet {c : Call Address} {b : Book Address} {a a' : Auction Address}
      {calls : List (TokenCall Address)} (hb : b.auction = some a)
      (hq : QuietStep env id c a a' calls) : BookStep env id c b (b.setAuction a') calls
  | firstBid {b : Book Address} {a : Auction Address} {bidder : Address} {amount : I128}
      (hb : b.auction = some a) (ok : AcceptsBid env a bidder amount)
      (hn : a.highestBidder = none) :
      BookStep env id (.placeBid id bidder amount) b
        (b.setAuction (a.withBid env.timestamp bidder amount))
        [lockBid env a.paymentToken bidder amount]
  | outbid {b : Book Address} {a : Auction Address} {bidder previous : Address} {amount : I128}
      (hb : b.auction = some a) (ok : AcceptsBid env a bidder amount)
      (hp : a.highestBidder = some previous) :
      BookStep env id (.placeBid id bidder amount) b
        ((b.credit previous a.highestBid).setAuction (a.withBid env.timestamp bidder amount))
        [lockBid env a.paymentToken bidder amount]
  | buy {b : Book Address} {a : Auction Address} {buyer : Address} {maxPrice : Option I128}
      (hb : b.auction = some a) (ok : AcceptsPurchase env a buyer maxPrice) :
      BookStep env id (.buyNow id buyer maxPrice) b
        (b.setAuction (a.withPurchase buyer (getCurrentPrice env a)))
        [lockBid env a.paymentToken buyer (getCurrentPrice env a)]
  | commit {b : Book Address} {a : Auction Address} {bidder : Address}
      {commitment : BytesN 32} {amount : I128} (hb : b.auction = some a)
      (ok : AcceptsCommit env a bidder amount) (hn : b.commitments bidder = none) :
      BookStep env id (.commitBid id bidder commitment amount) b
        ((b.setCommitment bidder (some (commitmentRecord env bidder commitment amount))).setAuction
          { a with bidderCount := a.bidderCount.wrappingAdd 1 })
        [lockBid env a.paymentToken bidder amount]
  | reveal {b : Book Address} {a : Auction Address} {bidder : Address} {amount : I128}
      {salt : BytesN 32} {stored : BidCommitment Address} (hb : b.auction = some a)
      (hc : b.commitments bidder = some stored)
      (ok : AcceptsReveal env id a stored bidder amount salt) (hn : b.revealed bidder = none) :
      BookStep env id (.revealBid id bidder amount salt) b
        ((b.setAuction (a.withReveal ⟨bidder, amount, env.timestamp⟩)).setRevealed bidder
          ⟨bidder, amount, env.timestamp⟩) []
  | takeBack {b : Book Address} {a : Auction Address} {bidder : Address}
      {stored : BidCommitment Address} (hb : b.auction = some a)
      (hc : b.commitments bidder = some stored) (ok : AcceptsRefund env a bidder)
      (hn : b.revealed bidder = none) :
      BookStep env id (.refundUnrevealed id bidder) b
        ((b.setCommitment bidder none).setAuction a.withoutBidder)
        [refundBid env a.paymentToken bidder stored.amount]
  | withdraw {b : Book Address} {a : Auction Address} {bidder : Address}
      (hb : b.auction = some a) (ha : env.auth bidder = true) (hr : 0 < b.refund bidder) :
      BookStep env id (.withdrawRefund id bidder) b (b.setRefund bidder none)
        [refundBid env a.paymentToken bidder (b.refund bidder)]
  | finalize {b : Book Address} {a : Auction Address} {winner : SealedBidEntry Address}
      (hb : b.auction = some a) (hs : a.status = .active) (ht : a.endTime ≤ env.timestamp)
      (hf : a.format = .sealedBid) (hd : a.revealDeadline ≤ env.timestamp)
      (hw : highestEntry a.revealedBids = some winner) :
      BookStep env id (.closeAuction id) b
        ((b.creditLosers winner a.revealedBids).setAuction (a.withWinner winner)) []

/-- **An auction that does not exist can only be created.** -/
theorem BookStep.of_none {env : Env Address} {id : U64} {c : Call Address} {b b' : Book Address}
    {calls : List (TokenCall Address)} (h : BookStep env id c b b' calls)
    (hb : b.auction = none) : ∃ params config, c = .createAuction params ∧
      AcceptsAuction env params config ∧
        b' = b.setAuction (newAuction params id config.defaultPlatformFeeBps) ∧ calls = [] := by
  cases h with
  | create _ ok => exact ⟨_, _, rfl, ok, rfl, rfl⟩
  | _ ha => rw [ha] at hb; cases hb

/-- **What can happen to an English auction**, whose record is `a`. -/
inductive EnglishStep (env : Env Address) (id : U64) (a : Auction Address) :
    Call Address → Book Address → Book Address → List (TokenCall Address) → Prop
  | quiet {c : Call Address} {b : Book Address} {a' : Auction Address}
      {calls : List (TokenCall Address)} (hq : QuietStep env id c a a' calls) :
      EnglishStep env id a c b (b.setAuction a') calls
  | firstBid {b : Book Address} {bidder : Address} {amount : I128}
      (ok : AcceptsBid env a bidder amount) (hn : a.highestBidder = none) :
      EnglishStep env id a (.placeBid id bidder amount) b
        (b.setAuction (a.withBid env.timestamp bidder amount))
        [lockBid env a.paymentToken bidder amount]
  | outbid {b : Book Address} {bidder previous : Address} {amount : I128}
      (ok : AcceptsBid env a bidder amount) (hp : a.highestBidder = some previous) :
      EnglishStep env id a (.placeBid id bidder amount) b
        ((b.credit previous a.highestBid).setAuction (a.withBid env.timestamp bidder amount))
        [lockBid env a.paymentToken bidder amount]
  | withdraw {b : Book Address} {bidder : Address} (hr : 0 < b.refund bidder) :
      EnglishStep env id a (.withdrawRefund id bidder) b (b.setRefund bidder none)
        [refundBid env a.paymentToken bidder (b.refund bidder)]

/-- The other steps are for auctions of other formats. -/
theorem BookStep.english {env : Env Address} {id : U64} {c : Call Address} {b b' : Book Address}
    {calls : List (TokenCall Address)} (h : BookStep env id c b b' calls) {a : Auction Address}
    (ha : b.auction = some a) (hf : a.format = .english) : EnglishStep env id a c b b' calls := by
  cases h with
  | create hnone => rw [hnone] at ha; cases ha
  | quiet hb hq => obtain rfl := Option.some.inj (ha.symm.trans hb); exact .quiet hq
  | firstBid hb ok hn => obtain rfl := Option.some.inj (ha.symm.trans hb); exact .firstBid ok hn
  | outbid hb ok hp => obtain rfl := Option.some.inj (ha.symm.trans hb); exact .outbid ok hp
  | withdraw hb _ hr => obtain rfl := Option.some.inj (ha.symm.trans hb); exact .withdraw hr
  | buy hb ok =>
    obtain rfl := Option.some.inj (ha.symm.trans hb)
    cases hf.symm.trans ok.format
  | commit hb ok =>
    obtain rfl := Option.some.inj (ha.symm.trans hb)
    cases hf.symm.trans ok.format
  | reveal hb _ ok =>
    obtain rfl := Option.some.inj (ha.symm.trans hb)
    cases hf.symm.trans ok.format
  | takeBack hb _ ok =>
    obtain rfl := Option.some.inj (ha.symm.trans hb)
    cases hf.symm.trans ok.format
  | finalize hb _ _ hsealed =>
    obtain rfl := Option.some.inj (ha.symm.trans hb)
    cases hf.symm.trans hsealed

theorem QuietStep.bookStep_self {env : Env Address} {id : U64} {c : Call Address}
    {b : Book Address} {a : Auction Address} {calls : List (TokenCall Address)}
    (h : QuietStep env id c a a calls) (hb : b.auction = some a) :
    BookStep env id c b b calls := by
  have hstep := BookStep.quiet hb h
  rw [Book.setAuction_eq_self hb] at hstep
  exact hstep

end UrithiBidz
