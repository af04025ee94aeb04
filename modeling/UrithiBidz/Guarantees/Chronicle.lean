import UrithiBidz.Library.Projection
import UrithiBidz.Contract.Queries
import UrithiBidz.Ledger.Replay

/-!
# What the events tell of the state

Nothing off the chain reads the storage of the contract. The backend and every page that shows an
auction live on the events, so whatever a call changes without saying so is lost on them.

What the events tell of an auction is its `UrithiBidz.Chronicle`:
* its seller, format, reserve price, metadata and end,
* whether it is listed, ended, settled or cancelled,
* who leads, and with what,
* what each bidder may claim,
* which bidders have a commitment,
* what each bidder has revealed.

Events are read as `UrithiBidz.News` of one auction, and `UrithiBidz.Chronicle.hear` says what each
piece of news changes. The events of a call are the news of exactly what the call changed of this
(`UrithiBidz.invoke_news`), so along a run the chronicle of every auction is told by the events
alone (`UrithiBidz.Run.told`).

This is not the whole book. Activation publishes nothing, so an auction that waits to be opened and
one that is open look the same, and `UrithiBidz.Standing` has one value for both. A commitment is
announced without its hash and its deposit, so the chronicle only has who made one. Of what was
revealed it has the amounts, and the rest of the record of an auction (the item, the token it is
paid in, the fees, the deadlines and so on) is not in it at all.
-/

namespace UrithiBidz

variable {Address : Type}

/-! ### What is known from outside -/

/-- Where an auction stands, as far as it is told. -/
inductive Standing
  | listed
  | ended
  | settled
  | cancelled
  deriving DecidableEq

/-- What is told of a status. -/
def AuctionStatus.standing : AuctionStatus → Standing
  | .created => .listed
  | .active => .listed
  | .ended => .ended
  | .settled => .settled
  | .cancelled => .cancelled

variable (Address) in
/-- How an auction was listed, and how it goes, as far as it is told. -/
structure Listing where
  seller : Address
  format : AuctionFormat
  reservePrice : I128
  metadataUri : String
  endTime : U64
  standing : Standing
  leader : Option (Address × I128)
  deriving DecidableEq

variable (Address) in
/-- **What is told of an auction.** -/
@[ext] structure Chronicle where
  /-- The auction itself, once there is one. -/
  listing : Option (Listing Address)
  /-- What each bidder may claim. -/
  claim : Address → I128
  /-- Who has a commitment, but not to what. -/
  committed : Address → Bool
  /-- The amounts that were revealed. -/
  revealed : Address → Option I128

/-- The listing of a record. -/
def Auction.listing (a : Auction Address) : Listing Address where
  seller := a.seller
  format := a.format
  reservePrice := a.reservePrice
  metadataUri := a.metadataUri
  endTime := a.endTime
  standing := a.status.standing
  leader := a.highestBidder.map fun bidder => (bidder, a.highestBid)

/-- The chronicle of a book: what it has of all this. -/
def Book.chronicle (b : Book Address) : Chronicle Address where
  listing := b.auction.map Auction.listing
  claim := b.refund
  committed := fun x => (b.commitments x).isSome
  revealed := fun x => (b.revealed x).map (·.amount)

namespace Book

@[simp] theorem chronicle_setAuction (b : Book Address) (a : Auction Address) :
    (b.setAuction a).chronicle = { b.chronicle with listing := some a.listing } := rfl

variable [DecidableEq Address]

@[simp] theorem chronicle_setCommitment (b : Book Address) (x : Address)
    (c : Option (BidCommitment Address)) : (b.setCommitment x c).chronicle =
      { b.chronicle with committed := Function.update b.chronicle.committed x c.isSome } := by
  ext y
  · rfl
  · rfl
  · by_cases h : y = x
    · subst h
      simp [chronicle]
    · simp [chronicle, h]
  · rfl

@[simp] theorem chronicle_setRevealed (b : Book Address) (x : Address)
    (e : SealedBidEntry Address) : (b.setRevealed x e).chronicle =
      { b.chronicle with revealed := Function.update b.chronicle.revealed x (some e.amount) } := by
  ext y : 2
  · rfl
  · rfl
  · rfl
  · by_cases h : y = x
    · subst h
      simp [chronicle]
    · simp [chronicle, h]

@[simp] theorem chronicle_setRefund (b : Book Address) (x : Address) (amount : Option I128) :
    (b.setRefund x amount).chronicle =
      { b.chronicle with claim := Function.update b.chronicle.claim x (amount.getD 0) } := by
  ext y : 2
  · rfl
  · by_cases h : y = x
    · subst h
      simp [chronicle, refund]
    · simp [chronicle, refund, h]
  · rfl
  · rfl

omit [DecidableEq Address] in
@[simp] theorem chronicle_claim (b : Book Address) (x : Address) :
    b.chronicle.claim x = b.refund x := rfl

end Book

/-! ### News -/

variable (Address) in
/-- What an event says of an auction. -/
inductive News
  | created (seller : Address) (format : AuctionFormat) (reservePrice : I128) (endTime : U64)
      (metadataUri : String)
  | bid (bidder : Address) (amount : I128)
  | extended (endTime : U64)
  | outbid (bidder : Address) (amount : I128)
  | refunded (bidder : Address)
  | committed (bidder : Address)
  | revealed (bidder : Address) (amount : I128)
  | closed (winner : Address) (winningBid : I128)
  | settled
  | attested
  | cancelled
  | approved
  | unrevealed (bidder : Address)

/-- The format of a symbol. -/
def formatOfSymbol : ScVal Address → Option AuctionFormat
  | .symbol "english" => some .english
  | .symbol "dutch" => some .dutch
  | .symbol "sealed" => some .sealedBid
  | _ => none

/-- Read an event: the auction that it is about, and what it says. -/
def Event.read (e : Event Address) : Option (U64 × News Address) :=
  match e.topics, e.data with
  | [.symbol "auc_new", .u64 id, .address seller],
      .tuple [format, .i128 reservePrice, .u64 endTime, .string metadataUri] =>
    (formatOfSymbol format).map fun f => (id, .created seller f reservePrice endTime metadataUri)
  | [.symbol "bid_new", .u64 id, .address bidder], .tuple [.i128 amount, .u64 _, _] =>
    some (id, .bid bidder amount)
  | [.symbol "auc_ext", .u64 id], .tuple [.u64 newEndTime] => some (id, .extended newEndTime)
  | [.symbol "bid_out", .u64 id, .address bidder], .tuple [.i128 amount] =>
    some (id, .outbid bidder amount)
  | [.symbol "bid_ref", .u64 id, .address bidder], .tuple [.i128 _] => some (id, .refunded bidder)
  | [.symbol "cmt_stor", .u64 id, .address bidder], .void => some (id, .committed bidder)
  | [.symbol "bid_rev", .u64 id, .address bidder], .tuple [.i128 amount] =>
    some (id, .revealed bidder amount)
  | [.symbol "auc_end", .u64 id, .address winner], .tuple [.i128 winningBid, _] =>
    some (id, .closed winner winningBid)
  | [.symbol "auc_set", .u64 id], .tuple [.i128 _, .i128 _, .i128 _] => some (id, .settled)
  | [.symbol "att_rec", .u64 id, .address _], .void => some (id, .attested)
  | [.symbol "auc_cxl", .u64 id, .address _], .void => some (id, .cancelled)
  | [.symbol "nft_appr", .u64 id], .tuple [.address _, .u64 _] => some (id, .approved)
  | [.symbol "urv_ref", .u64 id, .address bidder], .tuple [.i128 _] => some (id, .unrevealed bidder)
  | _, _ => none

variable [DecidableEq Address]

namespace Chronicle

/-- Change the listing, if there is one. -/
def edit (v : Chronicle Address) (f : Listing Address → Listing Address) : Chronicle Address :=
  { v with listing := v.listing.map f }

omit [DecidableEq Address] in
theorem edit_edit (v : Chronicle Address) (f g : Listing Address → Listing Address) :
    (v.edit f).edit g = v.edit (g ∘ f) := by
  simp [edit]

/-- **What a piece of news changes.** -/
def hear (v : Chronicle Address) : News Address → Chronicle Address
  | .created seller format reservePrice endTime metadataUri =>
    { v with listing := some ⟨seller, format, reservePrice, metadataUri, endTime, .listed, none⟩ }
  | .bid bidder amount => v.edit fun l => { l with leader := some (bidder, amount) }
  | .extended endTime => v.edit fun l => { l with endTime := endTime }
  | .outbid bidder amount =>
    { v with
      claim := Function.update v.claim bidder ((v.claim bidder).saturatingAdd amount) }
  | .refunded bidder => { v with claim := Function.update v.claim bidder 0 }
  | .committed bidder => { v with committed := Function.update v.committed bidder true }
  | .revealed bidder amount =>
    { v with revealed := Function.update v.revealed bidder (some amount) }
  | .closed winner winningBid =>
    v.edit fun l => { l with standing := .ended, leader := some (winner, winningBid) }
  | .settled => v.edit fun l => { l with standing := .settled }
  | .attested => v.edit fun l => { l with standing := .listed }
  | .cancelled => v.edit fun l => { l with standing := .cancelled }
  | .approved => v
  | .unrevealed bidder => { v with committed := Function.update v.committed bidder false }

end Chronicle

/-- What is known of all auctions, before anything happened. -/
def nothingKnown : U64 → Chronicle Address :=
  fun _ => ⟨none, fun _ => 0, fun _ => false, fun _ => none⟩

/-- What is known of all auctions after one more event. -/
def tell (known : U64 → Chronicle Address) (e : Event Address) : U64 → Chronicle Address :=
  match e.read with
  | some (id, news) => Function.update known id ((known id).hear news)
  | none => known

/-- Events about one auction change what is known of that one. -/
theorem foldl_tell {id : U64} {news : List (News Address)} {events : List (Event Address)}
    {known : U64 → Chronicle Address}
    (h : events.map Event.read = news.map fun n => some (id, n)) :
    events.foldl tell known =
      Function.update known id (news.foldl Chronicle.hear (known id)) := by
  induction news generalizing events known with
  | nil =>
    rw [List.map_eq_nil_iff.mp h]
    simp
  | cons n news ih =>
    obtain ⟨e, rest, rfl, he, hrest⟩ := List.map_eq_cons_iff.mp h
    rw [List.foldl_cons, ih hrest, tell, he]
    simp

/-! ### What a call tells -/

variable {env : Env Address} {s : Storage Address} {id : U64} {c : Call Address}
  {o : Outcome Address}

/-- The outbid bidders of a finalization. -/
def losers (winner : SealedBidEntry Address) (entries : List (SealedBidEntry Address)) :
    List (News Address) :=
  (entries.filter fun entry => entry.bidder ≠ winner.bidder).map fun entry =>
    .outbid entry.bidder entry.amount

theorem losers_cons_of_ne {winner entry : SealedBidEntry Address}
    {entries : List (SealedBidEntry Address)} (h : entry.bidder ≠ winner.bidder) :
    losers winner (entry :: entries) =
      .outbid entry.bidder entry.amount :: losers winner entries := by
  simp [losers, h]

theorem losers_cons_of_eq {winner entry : SealedBidEntry Address}
    {entries : List (SealedBidEntry Address)} (h : ¬entry.bidder ≠ winner.bidder) :
    losers winner (entry :: entries) = losers winner entries := by
  simp [losers, not_not.mp h]

omit [DecidableEq Address] in
theorem Book.chronicle_rewrite {b : Book Address} {a a' : Auction Address}
    (ha : b.auction = some a) (f : Listing Address → Listing Address)
    (hf : a'.listing = f a.listing) : (b.setAuction a').chronicle = b.chronicle.edit f := by
  rw [chronicle_setAuction, hf, Chronicle.edit]
  simp [chronicle, ha]

omit [DecidableEq Address] in
theorem Book.chronicle_keep {b : Book Address} {a a' : Auction Address}
    (ha : b.auction = some a) (hf : a'.listing = a.listing) :
    (b.setAuction a').chronicle = b.chronicle := by
  rw [chronicle_setAuction, hf]
  simp [chronicle, ha]

theorem Book.chronicle_credit (b : Book Address) (x : Address) (amount : I128) :
    (b.credit x amount).chronicle = b.chronicle.hear (.outbid x amount) :=
  b.chronicle_setRefund x _

theorem Book.chronicle_creditLosers (winner : SealedBidEntry Address)
    (entries : List (SealedBidEntry Address)) (b : Book Address) :
    (b.creditLosers winner entries).chronicle =
      (losers winner entries).foldl Chronicle.hear b.chronicle := by
  induction entries generalizing b with
  | nil => rfl
  | cons entry entries ih =>
    rw [creditLosers, List.foldl_cons, ← creditLosers, ih]
    by_cases h : entry.bidder ≠ winner.bidder
    · rw [if_pos h, losers_cons_of_ne h, List.foldl_cons, chronicle_credit]
    · rw [if_neg h, losers_cons_of_eq h]

theorem read_foldl_creditLoser (winner : SealedBidEntry Address)
    (entries : List (SealedBidEntry Address)) (acc : Storage Address × List (Event Address)) :
    (entries.foldl (creditLoser id winner) acc).2.map Event.read =
      acc.2.map Event.read ++ (losers winner entries).map fun n => some (id, n) := by
  induction entries generalizing acc with
  | nil => exact (List.append_nil _).symm
  | cons entry entries ih =>
    rw [List.foldl_cons, ih, creditLoser]
    by_cases h : entry.bidder ≠ winner.bidder
    · rw [if_pos h, losers_cons_of_ne h, List.map_append, List.append_assoc]
      rfl
    · rw [if_neg h, losers_cons_of_eq h]

/-- The credit of a bidder who is displaced is told. -/
theorem told_creditPreviousBidder (s : Storage Address) (id : U64) (a : Auction Address) :
    ∃ news : List (News Address),
      (creditPreviousBidder s id a).2.map Event.read = news.map (fun n => some (id, n)) ∧
        ((creditPreviousBidder s id a).1.book id).auction = (s.book id).auction ∧
          ((creditPreviousBidder s id a).1.book id).chronicle =
            news.foldl Chronicle.hear (s.book id).chronicle := by
  unfold creditPreviousBidder
  rcases a.highestBidder with _ | previous
  · exact ⟨[], rfl, rfl, rfl⟩
  · refine ⟨[.outbid previous a.highestBid], rfl, ?_⟩
    dsimp only
    rw [Storage.book_setRefund_self]
    exact ⟨rfl, Book.chronicle_credit _ _ _⟩

/-- **A call tells what it changes** of the chronicle of the auction that it is about. -/
theorem invoke_news (h : invoke env s c = .ok o) (hid : c.target s = some id) :
    ∃ news : List (News Address), o.events.map Event.read = news.map (fun n => some (id, n)) ∧
      (o.storage.book id).chronicle = news.foldl Chronicle.hear (s.book id).chronicle := by
  cases c with
  | initializeContract => cases hid
  | updateConfig => cases hid
  | createAuction params =>
    obtain rfl : s.nextId = id := Option.some.inj hid
    obtain ⟨config, -, ok, rfl⟩ := createAuction_eq_ok_iff.mp h
    refine ⟨[.created params.seller params.format params.reservePrice params.endTime
      params.metadataUri], ?_, ?_⟩
    · cases hformat : params.format <;> simp [createAuctionOutcome, hformat] <;> rfl
    · rw [createAuctionOutcome, Storage.book_setAuction_self]
      rfl
  | attestPhysicalItem _ custodian hash =>
    obtain rfl := Option.some.inj hid
    obtain ⟨a, ha, ok, rfl⟩ := attestPhysicalItem_eq_ok_iff.mp h
    refine ⟨[.attested], rfl, ?_⟩
    rw [attestOutcome, Storage.book_setAuction_self]
    exact Book.chronicle_rewrite ha _ rfl
  | activateAuction =>
    obtain rfl := Option.some.inj hid
    obtain ⟨a, ha, ok, rfl⟩ := activateAuction_eq_ok_iff.mp h
    -- nothing is told, since a listing does not know active from created
    refine ⟨[], rfl, ?_⟩
    rw [activateOutcome, Storage.book_setAuction_self]
    refine Book.chronicle_keep ha ?_
    rw [Auction.listing, Auction.listing, ok.status]
    rfl
  | cancelAuction =>
    obtain rfl := Option.some.inj hid
    obtain ⟨a, ha, ok, rfl⟩ := cancelAuction_eq_ok_iff.mp h
    refine ⟨[.cancelled], rfl, ?_⟩
    rw [cancelOutcome, Storage.book_setAuction_self]
    exact Book.chronicle_rewrite ha _ rfl
  | approveNftTransfer =>
    obtain rfl := Option.some.inj hid
    obtain ⟨a, item, ha, ok, rfl⟩ := approveNftTransfer_eq_ok_iff.mp h
    exact ⟨[.approved], rfl, rfl⟩
  | placeBid auctionId bidder amount =>
    obtain rfl := Option.some.inj hid
    obtain ⟨a, ha, ok, rfl⟩ := placeBid_eq_ok_iff.mp h
    obtain ⟨outbid, hevents, hsame, hbook⟩ := told_creditPreviousBidder s auctionId a
    have hcredited : ((creditPreviousBidder s auctionId a).1.book auctionId).auction = some a :=
      hsame.trans ha
    -- a late bid is told twice, of the new deadline and of the bid
    by_cases hlate : a.endTime.saturatingSub env.timestamp < antiSnipeWindowSecs
    · refine ⟨outbid ++ [.extended (env.timestamp.saturatingAdd extensionSecs),
        .bid bidder amount], ?_, ?_⟩
      · simp only [placeBidOutcome, if_pos hlate, List.map_append, hevents, List.append_assoc]
        rfl
      · rw [placeBidOutcome, Storage.book_setAuction_self, List.foldl_append, ← hbook]
        refine (Book.chronicle_rewrite hcredited _ ?_).trans (Chronicle.edit_edit _ _ _).symm
        rw [Auction.listing, Auction.withBid, extendedEndTime, if_pos hlate]
        rfl
    · refine ⟨outbid ++ [.bid bidder amount], ?_, ?_⟩
      · simp only [placeBidOutcome, if_neg hlate, List.append_nil, List.map_append, hevents]
        rfl
      · rw [placeBidOutcome, Storage.book_setAuction_self, List.foldl_append, ← hbook]
        refine Book.chronicle_rewrite hcredited _ ?_
        rw [Auction.listing, Auction.withBid, extendedEndTime, if_neg hlate]
        rfl
  | buyNow _ buyer maxPrice =>
    obtain rfl := Option.some.inj hid
    obtain ⟨a, ha, ok, rfl⟩ := buyNow_eq_ok_iff.mp h
    refine ⟨[.bid buyer (getCurrentPrice env a), .closed buyer (getCurrentPrice env a)], rfl, ?_⟩
    rw [buyNowOutcome, Storage.book_setAuction_self]
    exact (Book.chronicle_rewrite ha _ rfl).trans (Chronicle.edit_edit _ _ _).symm
  | commitBid _ bidder commitment amount =>
    obtain rfl := Option.some.inj hid
    obtain ⟨a, ha, ok, rfl⟩ := commitBid_eq_ok_iff.mp h
    refine ⟨[.committed bidder], rfl, ?_⟩
    rw [commitBidOutcome, Storage.book_setAuction_self, Storage.book_setCommitment_self]
    exact (Book.chronicle_keep (a := a) ha rfl).trans (Book.chronicle_setCommitment _ _ _)
  | revealBid auctionId bidder amount salt =>
    obtain rfl := Option.some.inj hid
    obtain ⟨a, stored, ha, -, ok, rfl⟩ := revealBid_eq_ok_iff.mp h
    refine ⟨[.revealed bidder amount], rfl, ?_⟩
    have hkeep : ((s.book auctionId).setAuction
        (a.withReveal ⟨bidder, amount, env.timestamp⟩)).chronicle = (s.book auctionId).chronicle :=
      Book.chronicle_keep (a := a) ha rfl
    rw [revealBidOutcome, Storage.book_setRevealed_self, Storage.book_setAuction_self,
      Book.chronicle_setRevealed, hkeep]
    rfl
  | refundUnrevealed _ bidder =>
    obtain rfl := Option.some.inj hid
    obtain ⟨a, stored, ha, -, ok, rfl⟩ := refundUnrevealed_eq_ok_iff.mp h
    refine ⟨[.unrevealed bidder], rfl, ?_⟩
    rw [refundUnrevealedOutcome, Storage.book_setAuction_self, Storage.book_setCommitment_self]
    exact (Book.chronicle_keep (a := a) ha rfl).trans (Book.chronicle_setCommitment _ _ _)
  | withdrawRefund _ bidder =>
    obtain rfl := Option.some.inj hid
    obtain ⟨a, ha, ok, rfl⟩ := withdrawRefund_eq_ok_iff.mp h
    refine ⟨[.refunded bidder], rfl, ?_⟩
    rw [withdrawRefundOutcome, Storage.book_setRefund_self, Book.chronicle_setRefund]
    rfl
  | closeAuction _ =>
    obtain rfl := Option.some.inj hid
    obtain ⟨a, ha, hcl⟩ := closes_of_closeAuction h
    cases hcl with
    | idle hidle => exact ⟨[], rfl, rfl⟩
    | @won winner hs ht hf hw =>
      refine ⟨[.closed winner a.highestBid], rfl, ?_⟩
      rw [closeWonOutcome, Storage.book_setAuction_self]
      refine Book.chronicle_rewrite ha _ ?_
      rw [Auction.listing, Auction.listing, hw]
      rfl
    | unsold hs ht hf hr =>
      refine ⟨[.cancelled], rfl, ?_⟩
      rw [closeCancelledOutcome, Storage.book_setAuction_self]
      exact Book.chronicle_rewrite ha _ rfl
    | @finalized winner hs ht hf hd hw =>
      -- each loser is told of, and then the closing
      refine ⟨losers winner a.revealedBids ++ [.closed winner.bidder winner.amount], ?_, ?_⟩
      · rw [finalizeOutcome, List.map_append, read_foldl_creditLoser, List.map_append]
        rfl
      · rw [finalizeOutcome, Storage.book_setAuction_self, book_foldl_creditLoser,
          List.foldl_append, ← Book.chronicle_creditLosers]
        exact Book.chronicle_rewrite ((Book.creditLosers_auction _ _ _).trans ha) _ rfl
  | settleAuction _ =>
    obtain rfl := Option.some.inj hid
    obtain ⟨a, ha, -, winner, items, wallet, split, -, -, -, -, rfl⟩ :=
      settleAuction_eq_ok_iff.mp h
    refine ⟨[.settled], rfl, ?_⟩
    rw [settleOutcome, Storage.book_setAuction_self]
    exact Book.chronicle_rewrite ha _ rfl

/-! ### What a run tells -/

/-- What there is to know of all auctions. -/
def Storage.chronicle (s : Storage Address) : U64 → Chronicle Address :=
  fun id => (s.book id).chronicle

/-- **A call tells what it changes** of all chronicles, whatever it is about. -/
theorem chronicle_of_invoke (hs : s.Fresh) (h : invoke env s c = .ok o) :
    o.storage.chronicle = o.events.foldl tell s.chronicle := by
  rcases htarget : c.target s with _ | id
  · have hsilent : o.events = [] := by
      cases c with
      | initializeContract =>
        obtain ⟨-, rfl⟩ := initializeContract_eq_ok_iff.mp h
        rfl
      | updateConfig =>
        obtain ⟨config, -, -, rfl⟩ := updateConfig_eq_ok_iff.mp h
        rfl
      | _ => cases htarget
    rw [hsilent]
    exact funext fun A => congrArg Book.chronicle ((invoke_no_target h htarget).1 A)
  · obtain ⟨news, hevents, hbook⟩ := invoke_news h htarget
    rw [foldl_tell hevents]
    funext A
    by_cases hA : A = id
    · subst hA
      rw [Function.update_self]
      exact hbook
    · rw [Function.update_of_ne hA]
      exact congrArg Book.chronicle ((invoke_book hs h htarget).2 A hA)

variable {H : Host Address} {tr : List (Invocation Address)} {w : World H}

/-- The events of a run, in order. -/
def published (tr : List (Invocation Address)) : List (Event Address) :=
  tr.flatMap fun i => i.outcome.events

/-- **What the events tell**: along any run, folding them gives the chronicle of every auction as it
is stored, and with it what the contract answers a bidder who asks for a refund. -/
theorem Run.told (h : Run H tr w) :
    (published tr).foldl tell nothingKnown = w.storage.chronicle ∧
      ∀ id bidder, getClaimableRefund w.storage id bidder =
        ((published tr).foldl tell nothingKnown id).claim bidder := by
  have h₀ : ∀ w : World H, w.storage = .empty → w.storage.chronicle = nothingKnown := by
    intro w hw
    rw [hw]
    rfl
  have h₁ : ∀ (tr : List (Invocation Address)) (w : World H) i w', Run H tr w → Step H w i w' →
      w'.storage.chronicle = i.outcome.events.foldl tell w.storage.chronicle := by
    intro tr w i w' hpast hs
    obtain ⟨hbefore, hafter, hret, -, -⟩ := hs.returns
    rw [hbefore] at hret
    rw [hafter]
    exact chronicle_of_invoke (Run.fresh hpast) hret
  have htold := History.view_eq_foldl h₀ h₁ h
  refine ⟨htold.symm, fun id bidder => ?_⟩
  rw [published, ← htold]
  rfl

/-- An auction with three bids, after the second of which the first bidder is paid back. -/
def Stage.reported : List (Tx ℕ × Call ℕ) :=
  Stage.opening .english Stage.painting ++
    [(Stage.signed 2 1, .activateAuction 0),
      (Stage.signed 3 (.of 2), .placeBid 0 3 (.of 100)),
      (Stage.signed 4 (.of 3), .placeBid 0 4 (.of 110)),
      (Stage.signed 3 (.of 4), .withdrawRefund 0 3),
      (Stage.signed 3 (.of 5), .placeBid 0 3 (.of 120))]

/-- The theorem at these bids: ten events tell what the second bidder may claim. -/
theorem told_reported : ∃ (tr : List (Invocation ℕ)) (w : World Stage.host),
    Run Stage.host tr w ∧ (published tr).length = 10 ∧
      getClaimableRefund w.storage 0 3 = 0 ∧ getClaimableRefund w.storage 0 4 = .of 110 ∧
        (published tr).foldl tell nothingKnown = w.storage.chronicle := by
  have hreplay : (replay Stage.start Stage.reported).map (fun r => ((published r.1).length,
      getClaimableRefund r.2.storage 0 3, getClaimableRefund r.2.storage 0 4)) =
        some (10, 0, .of 110) := by
    decide +kernel
  obtain ⟨tr, w, hrun, hv⟩ := exists_run_of_replay Stage.world_refl rfl hreplay
  simp only [Prod.mk.injEq] at hv
  exact ⟨tr, w, hrun, hv.1, hv.2.1, hv.2.2, hrun.told.1⟩

end UrithiBidz
