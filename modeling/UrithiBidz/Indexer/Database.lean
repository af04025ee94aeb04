import UrithiBidz.Indexer.Native

/-!
# The tables

The indexer writes to three tables, for auctions, bids and events, and keeps its cursor in
a fourth (`db/index.ts`). The queries that it makes are `UrithiBidz.DbCall`, one constructor
for each function, and `UrithiBidz.Database.apply` is what a query does: it succeeds with
new tables, or it is refused and nothing is changed. The only function of several statements,
`updateAuctionOnBid`, runs them in a transaction.

A column holds the value it was given, as it was given, and texts are compared as texts.
Types of columns, their ranges and the `CHECK`s of the schema are not checked here, nor are times
of writing kept: a value that a column refuses is a query at which the database fails, as it may at
any query. What is checked is what ties rows together: an auction is unique for its id, a bid
refers to an auction, an event is unique for its ledger, its type and its auction. What is written
as JSON has to be possible to write.
-/

namespace UrithiBidz

/-! ### Rows -/

/-- A row of `auctions`. -/
structure AuctionRecord where
  id : ℤ
  seller : Native
  originalCreator : Native
  format : String
  status : String
  itemType : Native
  nftContract : Native := .undefined
  tokenId : Native := .undefined
  custodian : Native := .undefined
  attestationHash : Native := .undefined
  paymentToken : Native
  reservePrice : String
  royaltyBps : Native
  platformFeeBps : Native
  startTime : Native
  endTime : Native
  commitDeadline : Native := .undefined
  revealDeadline : Native := .undefined
  metadataUri : Native
  minIncrement : String
  startPrice : String
  priceDecayPerSecond : String
  highestBidder : Native := .undefined
  highestBid : String
  currentDutchPrice : String
  attested : Bool
  sellerProceeds : Option String := none
  royaltyAmount : Option String := none
  platformFeeAmount : Option String := none

/-- A row of `bids`. -/
structure BidRow where
  auctionId : ℤ
  bidder : Native
  amount : String
  format : String
  timestamp : Native
  isWinning : Bool
  refunded : Bool := false

/-- A row of `events`. -/
structure EventRecord where
  eventType : String
  auctionId : ℤ
  data : Native
  ledgerSequence : ℕ
  txHash : Option String

/-- The tables, and the cursor. -/
structure Database where
  auctions : ℤ → Option AuctionRecord
  bids : List BidRow
  events : List EventRecord
  cursor : ℕ

/-- The tables when they have just been set up. -/
def Database.blank : Database := ⟨fun _ => none, [], [], 0⟩

/-! ### Queries -/

/-- A query. -/
inductive DbCall
  | upsertAuction (auction : AuctionRecord)
  | updateAuctionOnBid (auctionId : ℤ) (highestBidder : Native) (highestBid : String)
  | updateAuctionOnClose (auctionId : ℤ) (status : String)
      (highestBidder highestBid : Option String)
  | updateAuctionOnSettle (auctionId : ℤ) (sellerProceeds royaltyAmount : Option String)
      (platformFeeAmount : Option String)
  | updateAuctionOnCancel (auctionId : ℤ)
  | updateAuctionOnAttestation (auctionId : ℤ) (attestationHash : Native)
  | markBidRefunded (auctionId : ℤ) (bidder : Native)
  | insertBid (bid : BidRow)
  | insertEvent (event : EventRecord)

namespace Database

/-- Change the row of an auction, if there is one. -/
def updateAuction (db : Database) (auctionId : ℤ) (f : AuctionRecord → AuctionRecord) : Database :=
  { db with auctions := Function.update db.auctions auctionId ((db.auctions auctionId).map f) }

/-- Write the row of an auction. A row that is there keeps what is fixed by its creation. -/
def upsertAuction (db : Database) (auction : AuctionRecord) : Database :=
  let row := match db.auctions auction.id with
    | some old =>
      { old with
        status := auction.status
        highestBidder := auction.highestBidder
        highestBid := auction.highestBid
        currentDutchPrice := auction.currentDutchPrice
        attested := auction.attested
        sellerProceeds := auction.sellerProceeds
        royaltyAmount := auction.royaltyAmount
        platformFeeAmount := auction.platformFeeAmount }
    | none => auction
  { db with auctions := Function.update db.auctions auction.id (some row) }

/-- What a text is when it is empty or missing. -/
def nonEmpty (s : Option String) : Option String := s.filter (· ≠ "")

theorem nonEmpty_eq_some_iff {text : Option String} {s : String} :
    nonEmpty text = some s ↔ text = some s ∧ s ≠ "" := by
  simp [nonEmpty, Option.filter_eq_some_iff]

/-- Change the bids of an auction that meet a condition. -/
def updateBids (db : Database) (auctionId : ℤ) (p : BidRow → Bool) (f : BidRow → BidRow) :
    Database :=
  { db with
    bids := db.bids.map fun bid => if bid.auctionId = auctionId ∧ p bid then f bid else bid }

/-- What a query does, if it is not refused. -/
def apply (db : Database) : DbCall → Option Database
  | .upsertAuction auction => some (db.upsertAuction auction)
  | .updateAuctionOnBid auctionId highestBidder highestBid =>
    some ((db.updateBids auctionId (·.isWinning) fun bid =>
      { bid with isWinning := false }).updateAuction auctionId fun row =>
        { row with highestBidder := highestBidder, highestBid := highestBid, status := "active" })
  | .updateAuctionOnClose auctionId status highestBidder highestBid =>
    match nonEmpty highestBidder, nonEmpty highestBid with
    | some bidder, some bid => some (db.updateAuction auctionId fun row =>
        { row with status := status, highestBidder := .string bidder, highestBid := bid })
    | _, _ => some (db.updateAuction auctionId fun row => { row with status := status })
  | .updateAuctionOnSettle auctionId sellerProceeds royaltyAmount platformFeeAmount =>
    some (db.updateAuction auctionId fun row =>
      { row with
        status := "settled"
        sellerProceeds := nonEmpty sellerProceeds <|> row.sellerProceeds
        royaltyAmount := nonEmpty royaltyAmount <|> row.royaltyAmount
        platformFeeAmount := nonEmpty platformFeeAmount <|> row.platformFeeAmount })
  | .updateAuctionOnCancel auctionId =>
    some (db.updateAuction auctionId fun row => { row with status := "cancelled" })
  | .updateAuctionOnAttestation auctionId attestationHash =>
    some (db.updateAuction auctionId fun row =>
      { row with attested := true, attestationHash := attestationHash })
  | .markBidRefunded auctionId bidder =>
    some (db.updateBids auctionId (·.bidder.text = bidder.text) fun bid =>
      { bid with refunded := true, isWinning := false })
  | .insertBid bid =>
    if (db.auctions bid.auctionId).isSome then some { db with bids := db.bids ++ [bid] } else none
  | .insertEvent event =>
    if event.data.jsonable then
      if db.events.any fun row => row.ledgerSequence = event.ledgerSequence ∧
          row.eventType = event.eventType ∧ row.auctionId = event.auctionId then
        some db
      else some { db with events := db.events ++ [event] }
    else none

/-- Make queries, one after the other, until one is refused: the tables then, and whether
all of them were made. -/
def run (db : Database) : List DbCall → Database × Bool
  | [] => (db, true)
  | call :: calls => match db.apply call with
    | some db' => run db' calls
    | none => (db, false)

theorem run_append (db : Database) (calls calls' : List DbCall) :
    db.run (calls ++ calls') =
      if (db.run calls).2 then (db.run calls).1.run calls' else db.run calls := by
  induction calls generalizing db with
  | nil => rfl
  | cons call calls ih =>
    rw [List.cons_append, run, run]
    split
    · next db' h => exact ih db'
    · rfl

/-! ### What a query can do -/

/-- **Rows that are there are changed, and an auction may be added.** The bids are changed one by
one, none to another auction and none to winning. -/
structure Updates (db db' : Database) : Prop where
  auctions : ∀ n, (db.auctions n).isSome → (db'.auctions n).isSome
  bids : ∃ f : BidRow → BidRow, db'.bids = db.bids.map f ∧ ∀ bid,
    (f bid).auctionId = bid.auctionId ∧ ((f bid).isWinning = true → bid.isWinning = true)
  events : db'.events = db.events
  cursor : db'.cursor = db.cursor

theorem Updates.of_auctions {db db' : Database}
    (hauctions : ∀ n, (db.auctions n).isSome → (db'.auctions n).isSome)
    (hbids : db'.bids = db.bids) (hevents : db'.events = db.events)
    (hcursor : db'.cursor = db.cursor) : db.Updates db' :=
  ⟨hauctions, ⟨id, by rw [hbids, List.map_id], fun _ => ⟨rfl, fun hwins => hwins⟩⟩, hevents,
    hcursor⟩

theorem Updates.trans {db db' db'' : Database} (h : db.Updates db') (h' : db'.Updates db'') :
    db.Updates db'' := by
  obtain ⟨f, hbids, hf⟩ := h.bids
  obtain ⟨f', hbids', hf'⟩ := h'.bids
  refine ⟨fun n hn => h'.auctions n (h.auctions n hn), ⟨f' ∘ f, ?_, fun bid => ?_⟩,
    h'.events.trans h.events, h'.cursor.trans h.cursor⟩
  · rw [hbids', hbids, List.map_map]
  · exact ⟨(hf' (f bid)).1.trans (hf bid).1, fun hwins => (hf bid).2 ((hf' (f bid)).2 hwins)⟩

theorem updates_updateAuction (db : Database) (auctionId : ℤ)
    (f : AuctionRecord → AuctionRecord) : db.Updates (db.updateAuction auctionId f) := by
  refine .of_auctions (fun n hn => ?_) rfl rfl rfl
  rcases eq_or_ne n auctionId with rfl | hne
  · simpa [updateAuction] using hn
  · simpa [updateAuction, hne] using hn

theorem updates_upsertAuction (db : Database) (auction : AuctionRecord) :
    db.Updates (db.upsertAuction auction) := by
  refine .of_auctions (fun n hn => ?_) rfl rfl rfl
  rcases eq_or_ne n auction.id with rfl | hne
  · simp [upsertAuction]
  · simpa [upsertAuction, hne] using hn

theorem updates_updateBids (db : Database) (auctionId : ℤ) (p : BidRow → Bool)
    {f : BidRow → BidRow} (hf : ∀ bid, (f bid).auctionId = bid.auctionId ∧
      ((f bid).isWinning = true → bid.isWinning = true)) :
    db.Updates (db.updateBids auctionId p f) := by
  refine ⟨fun _ hn => hn, ⟨_, rfl, fun bid => ?_⟩, rfl, rfl⟩
  split
  · exact hf bid
  · exact ⟨rfl, fun hwins => hwins⟩

/-- **What a query can do**: insert a bid, insert an event unless it is there, or update. -/
theorem apply_cases {db db' : Database} {call : DbCall} (h : db.apply call = some db') :
    (∃ bid, call = .insertBid bid ∧ (db.auctions bid.auctionId).isSome ∧
      db' = { db with bids := db.bids ++ [bid] }) ∨
    (∃ event, call = .insertEvent event ∧
      (db' = db ∨ db' = { db with events := db.events ++ [event] })) ∨
    db.Updates db' := by
  cases call with
  | upsertAuction auction =>
    rw [← Option.some.inj h]
    exact Or.inr (Or.inr (db.updates_upsertAuction auction))
  | updateAuctionOnBid auctionId highestBidder highestBid =>
    rw [← Option.some.inj h]
    -- marks are taken away, none is added
    have hbids := db.updates_updateBids auctionId (·.isWinning)
      (f := fun bid => { bid with isWinning := false })
      fun _ => ⟨rfl, fun hwins => absurd hwins Bool.false_ne_true⟩
    exact Or.inr (Or.inr (hbids.trans (updates_updateAuction _ _ _)))
  | updateAuctionOnClose auctionId status highestBidder highestBid =>
    rw [apply] at h
    split at h <;> rw [← Option.some.inj h] <;>
      exact Or.inr (Or.inr (db.updates_updateAuction _ _))
  | markBidRefunded auctionId bidder =>
    rw [← Option.some.inj h]
    exact Or.inr (Or.inr (db.updates_updateBids _ _ fun _ =>
      ⟨rfl, fun hwins => absurd hwins Bool.false_ne_true⟩))
  | insertBid bid =>
    rw [apply] at h
    split at h
    · next hauction => exact Or.inl ⟨bid, rfl, hauction, (Option.some.inj h).symm⟩
    · cases h
  | insertEvent event =>
    rw [apply] at h
    split at h
    · refine Or.inr (Or.inl ⟨event, rfl, ?_⟩)
      split at h
      · exact Or.inl (Option.some.inj h).symm
      · exact Or.inr (Option.some.inj h).symm
    · cases h
  | _ =>
    rw [← Option.some.inj h]
    exact Or.inr (Or.inr (db.updates_updateAuction _ _))

/-- **What each of some queries keeps, they keep together**, also when one of them is refused. -/
theorem run_induct {P : Database → Prop} {db : Database} {calls : List DbCall} (hdb : P db)
    (hstep : ∀ call ∈ calls, ∀ db db', P db → db.apply call = some db' → P db') :
    P (db.run calls).1 := by
  induction calls generalizing db with
  | nil => exact hdb
  | cons call calls ih =>
    rw [run]
    split
    · next db' hcall =>
      exact ih (hstep call List.mem_cons_self db db' hdb hcall) fun c hc =>
        hstep c (List.mem_cons_of_mem _ hc)
    · exact hdb

end Database

end UrithiBidz
