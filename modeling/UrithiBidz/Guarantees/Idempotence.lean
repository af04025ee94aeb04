import UrithiBidz.Indexer.Writes

/-!
# Events that come again

The indexer meets events more than once: the last ledger of a full page is fetched again, and
after a restart everything behind the saved cursor is. Handling an event again is meant to
change nothing. Only the table of events is protected, by its uniqueness; what a handler
writes to auctions and bids it writes every time.

So an event that comes again changes nothing only if the tables say already what it says:
`UrithiBidz.Database.Reflects` spells this out for each name. A new auction must still be as it
was created, with no bid; a closed, settled or cancelled one must not have got another status
since; a bidder who is gone must have no bid that is not marked. For a bid there is no such
case, since it is inserted once more whenever it comes (`UrithiBidz.Ingested.idempotent`).

The load-bearing facts are two that hold of every history: nothing is ever deleted
(`UrithiBidz.Database.Grows`), and therefore what was stored for an event that went through
is still there when it comes again (`UrithiBidz.Database.Keeps`).
-/

namespace UrithiBidz

/-! ### The tables, timestamps aside -/

/-- A bid without its time. -/
def BidRow.untimed (bid : BidRow) : BidRow := { bid with timestamp := .undefined }

namespace Database

/-- **The same auctions, bids and events**, but for the times of the bids. -/
structure Alike (db db' : Database) : Prop where
  auctions : db.auctions = db'.auctions
  bids : db.bids.map BidRow.untimed = db'.bids.map BidRow.untimed
  events : db.events = db'.events

theorem Alike.refl (db : Database) : db.Alike db := ⟨rfl, rfl, rfl⟩

/-! ### Nothing is deleted -/

/-- Later tables: the events are stored behind those that are there, and no auction is lost. -/
structure Grows (db db' : Database) : Prop where
  events : db.events <+: db'.events
  auctions : ∀ n, (db.auctions n).isSome → (db'.auctions n).isSome

theorem Grows.refl (db : Database) : db.Grows db := ⟨List.prefix_refl _, fun _ h => h⟩

theorem Grows.trans {db db' db'' : Database} (h : db.Grows db') (h' : db'.Grows db'') :
    db.Grows db'' :=
  ⟨h.events.trans h'.events, fun n hn => h'.auctions n (h.auctions n hn)⟩

theorem grows_of_apply {db db' : Database} {call : DbCall} (h : db.apply call = some db') :
    db.Grows db' := by
  rcases apply_cases h with ⟨bid, -, -, rfl⟩ | ⟨event, -, rfl | rfl⟩ | hupdates
  · exact ⟨List.prefix_refl _, fun _ hn => hn⟩
  · exact Grows.refl db'
  · exact ⟨List.prefix_append _ _, fun _ hn => hn⟩
  · exact ⟨by rw [hupdates.events], hupdates.auctions⟩

theorem grows_run (db : Database) (calls : List DbCall) : db.Grows (db.run calls).1 :=
  run_induct (Grows.refl db) fun _ _ _ _ hgrows hcall => hgrows.trans (grows_of_apply hcall)

/-- **Nothing is deleted when an event is handled**, whether it goes through or not. -/
theorem grows_handle (db : Database) (now : ℤ) (event : SorobanEvent) :
    db.Grows (db.handle now event).1 := by
  rw [handle]
  split
  · next calls _ => exact db.grows_run calls
  · exact Grows.refl db

/-- **What a query does to the bids**: it adds one, or it changes them one by one, none to another
auction and none to winning. -/
theorem bids_apply {db db' : Database} {call : DbCall} (h : db.apply call = some db') :
    (∃ bid, call = .insertBid bid ∧ db'.bids = db.bids ++ [bid]) ∨
      ∃ f : BidRow → BidRow, db'.bids = db.bids.map f ∧ ∀ bid,
        (f bid).auctionId = bid.auctionId ∧ ((f bid).isWinning = true → bid.isWinning = true) := by
  rcases apply_cases h with ⟨bid, hcall, -, rfl⟩ | ⟨event, -, rfl | rfl⟩ | hupdates
  · exact Or.inl ⟨bid, hcall, rfl⟩
  · exact Or.inr ⟨id, (List.map_id _).symm, fun _ => ⟨rfl, fun hwins => hwins⟩⟩
  · exact Or.inr ⟨id, (List.map_id _).symm, fun _ => ⟨rfl, fun hwins => hwins⟩⟩
  · exact Or.inr hupdates.bids

theorem length_bids_apply {db db' : Database} {call : DbCall} (h : db.apply call = some db') :
    db.bids.length ≤ db'.bids.length := by
  rcases bids_apply h with ⟨bid, -, hbids⟩ | ⟨f, hbids, -⟩
  · rw [hbids, List.length_append]
    exact Nat.le_add_right _ _
  · rw [hbids, List.length_map]

theorem length_bids_run (db : Database) (calls : List DbCall) :
    db.bids.length ≤ (db.run calls).1.bids.length :=
  run_induct (P := fun db' => db.bids.length ≤ db'.bids.length) (le_refl _)
    fun _ _ _ _ hle hcall => hle.trans (length_bids_apply hcall)

/-! ### What is kept of an event -/

/-- An event is stored for a ledger, under a name and for an auction. -/
def Stores (db : Database) (ledger : ℕ) (eventType : String) (auctionId : ℤ) : Prop :=
  ∃ row ∈ db.events, row.ledgerSequence = ledger ∧ row.eventType = eventType ∧
    row.auctionId = auctionId

theorem Stores.grows {db db' : Database} {ledger : ℕ} {eventType : String} {auctionId : ℤ}
    (h : db.Stores ledger eventType auctionId) (hgrows : db.Grows db') :
    db'.Stores ledger eventType auctionId := by
  obtain ⟨row, hrow, hkey⟩ := h
  exact ⟨row, hgrows.events.subset hrow, hkey⟩

theorem stores_of_insertEvent {db db' : Database} {event : EventRecord}
    (h : db.apply (.insertEvent event) = some db') :
    db'.Stores event.ledgerSequence event.eventType event.auctionId := by
  rw [apply] at h
  split at h
  · split at h <;> rw [← Option.some.inj h]
    · next hany => simpa [Stores] using hany
    · exact ⟨event, List.mem_append_right _ List.mem_cons_self, rfl, rfl, rfl⟩
  · cases h

/-- **An event that is stored is not stored again.** -/
theorem run_insertEvent {db : Database} {event : EventRecord}
    (h : db.Stores event.ledgerSequence event.eventType event.auctionId) :
    (db.run [.insertEvent event]).1 = db := by
  have hany : (db.events.any fun row => row.ledgerSequence = event.ledgerSequence ∧
      row.eventType = event.eventType ∧ row.auctionId = event.auctionId) = true := by
    simpa [Stores] using h
  simp only [run, apply, hany, if_true]
  split
  · next db' hcall =>
    split at hcall
    · exact (Option.some.inj hcall).symm
    · cases hcall
  · rfl

/-- What is inserted by queries that were all made is there: the event, and the auction of a
bid. -/
theorem inserted_of_run {db : Database} {calls : List DbCall} (h : (db.run calls).2 = true) :
    (∀ event, .insertEvent event ∈ calls →
      (db.run calls).1.Stores event.ledgerSequence event.eventType event.auctionId) ∧
    ∀ bid, .insertBid bid ∈ calls → ((db.run calls).1.auctions bid.auctionId).isSome := by
  induction calls generalizing db with
  | nil => exact ⟨fun _ he => absurd he List.not_mem_nil, fun _ hb => absurd hb List.not_mem_nil⟩
  | cons call calls ih =>
    rw [run] at h ⊢
    split at h
    · next db' hcall =>
      obtain ⟨hevents, hbids⟩ := ih h
      constructor
      · intro event hevent
        rcases List.mem_cons.mp hevent with rfl | hevent
        · exact (stores_of_insertEvent hcall).grows (db'.grows_run calls)
        · exact hevents event hevent
      · intro bid hbid
        rcases List.mem_cons.mp hbid with rfl | hbid
        · refine (db'.grows_run calls).auctions _ ((grows_of_apply hcall).auctions _ ?_)
          rw [apply] at hcall
          exact (Option.ite_none_right_eq_some.mp hcall).1
        · exact hbids bid hbid
    · cases h

/-- Storing an event that is stored comes to nothing, behind any queries. -/
theorem run_append_insertEvent {db : Database} (event : EventRecord)
    (h : db.Stores event.ledgerSequence event.eventType event.auctionId) (calls : List DbCall) :
    (db.run (calls ++ [.insertEvent event])).1 = (db.run calls).1 := by
  induction calls generalizing db with
  | nil => exact run_insertEvent h
  | cons call calls ih =>
    rw [List.cons_append, run, run]
    split
    · next db' hcall => exact ih (h.grows (grows_of_apply hcall))
    · rfl

/-- **What is kept of an event that went through**: what it inserted. -/
def Keeps (db : Database) (event : SorobanEvent) : Prop :=
  ∃ now calls, processEvent now event = .ok calls ∧
    (∀ row, .insertEvent row ∈ calls →
      db.Stores row.ledgerSequence row.eventType row.auctionId) ∧
    ∀ bid, .insertBid bid ∈ calls → (db.auctions bid.auctionId).isSome

theorem Keeps.grows {db db' : Database} {event : SorobanEvent} (h : db.Keeps event)
    (hgrows : db.Grows db') : db'.Keeps event := by
  obtain ⟨now, calls, hcalls, hevents, hbids⟩ := h
  exact ⟨now, calls, hcalls, fun row hrow => (hevents row hrow).grows hgrows,
    fun bid hbid => hgrows.auctions _ (hbids bid hbid)⟩

theorem keeps_handle {db : Database} {now : ℤ} {event : SorobanEvent}
    (h : (db.handle now event).2 = true) : (db.handle now event).1.Keeps event := by
  rw [handle] at h ⊢
  split at h
  · next calls hcalls => exact ⟨now, calls, hcalls, inserted_of_run h⟩
  · cases h

/-! ### What the tables say already -/

end Database

/-- The row says that the auction was closed, with a winner if one is given. -/
def AuctionRecord.SaysClosed (row : AuctionRecord) (winner finalPrice : Option String) : Prop :=
  row.status = "closed" ∧ ∀ bidder bid, Database.nonEmpty winner = some bidder →
    Database.nonEmpty finalPrice = some bid →
      row.highestBidder = .string bidder ∧ row.highestBid = bid

/-- The row says that the auction was settled, with the shares that are given. -/
structure AuctionRecord.SaysSettled (row : AuctionRecord)
    (proceeds royalty fee : Option String) : Prop where
  status : row.status = "settled"
  sellerProceeds : ∀ x, Database.nonEmpty proceeds = some x → row.sellerProceeds = some x
  royaltyAmount : ∀ x, Database.nonEmpty royalty = some x → row.royaltyAmount = some x
  platformFeeAmount : ∀ x, Database.nonEmpty fee = some x → row.platformFeeAmount = some x

namespace Database

/-- The bids of a bidder are marked. -/
def Marked (db : Database) (auctionId : ℤ) (bidder : Native) : Prop :=
  ∀ bid ∈ db.bids, bid.auctionId = auctionId → bid.bidder.text = bidder.text →
    bid.refunded = true ∧ bid.isWinning = false

/-- **The tables say already what an event of a name says** of an auction in its payload. They
never say so of a bid, since the next one is written beside it. -/
def Reflects (db : Database) (auctionId : ℤ) (data : Native) : String → Prop
  | "auction_created" => ∀ startPrice, textOr data "start_price" "0" = .ok startPrice →
      ∃ row, db.auctions auctionId = some row ∧ row.JustCreated startPrice
  | "bid_placed" => False
  | "bid_refunded" => ∀ bidder, fieldOr data "bidder" (.string "") = .ok bidder →
      db.Marked auctionId bidder
  | "bid_out" => ∀ bidder, fieldOr data "bidder" (.string "") = .ok bidder →
      db.Marked auctionId bidder
  | "auction_closed" => ∀ winner finalPrice, textOf? data "winner" = .ok winner →
      textOf? data "final_price" = .ok finalPrice →
        ∀ row, db.auctions auctionId = some row → row.SaysClosed winner finalPrice
  | "auction_settled" => ∀ proceeds royalty fee, textOf? data "seller_proceeds" = .ok proceeds →
      textOf? data "royalty_amount" = .ok royalty →
        textOf? data "platform_fee_amount" = .ok fee →
          ∀ row, db.auctions auctionId = some row → row.SaysSettled proceeds royalty fee
  | "auction_cancelled" => ∀ row, db.auctions auctionId = some row → row.status = "cancelled"
  | "attestation_recorded" => ∀ hash, fieldOr data "attestation_hash" (.string "") = .ok hash →
      ∀ row, db.auctions auctionId = some row → row.attested = true ∧ row.attestationHash = hash
  | _ => True

/-! ### Changes that change nothing -/

/-- The queries change nothing in the tables exactly under a condition. -/
structure IdleIff (db : Database) (calls : List DbCall) (p : Prop) : Prop where
  of_alike : (db.run calls).1.Alike db → p
  eq_self : p → (db.run calls).1 = db

theorem IdleIff.congr {db : Database} {calls : List DbCall} {p q : Prop}
    (h : db.IdleIff calls p) (hpq : p ↔ q) : db.IdleIff calls q :=
  ⟨fun halike => hpq.mp (h.of_alike halike), fun hq => h.eq_self (hpq.mpr hq)⟩

/-- A change to the row of an auction changes nothing if the row is as the change makes it. -/
theorem idleIff_updateAuction {db : Database} {auctionId : ℤ}
    {f : AuctionRecord → AuctionRecord} {p : AuctionRecord → Prop} {call : DbCall}
    (hcall : db.apply call = some (db.updateAuction auctionId f))
    (hp : ∀ row, f row = row ↔ p row) :
    db.IdleIff [call] (∀ row, db.auctions auctionId = some row → p row) := by
  have hrun : (db.run [call]).1 = db.updateAuction auctionId f := by
    simp only [run, hcall]
  constructor
  · intro h row hrow
    rw [hrun] at h
    have hsame := congrFun h.auctions auctionId
    exact (hp row).mp (by simpa [updateAuction, hrow] using hsame)
  · intro h
    rw [hrun]
    have hmap : (db.auctions auctionId).map f = db.auctions auctionId := by
      rcases hrow : db.auctions auctionId with _ | row
      · rfl
      · rw [Option.map_some, (hp row).mpr (h row hrow)]
    rw [updateAuction, hmap, Function.update_eq_self]

/-- Writing an auction that is there changes nothing if the row is as it was written first. -/
theorem idleIff_upsertAuction {db : Database} {record : AuctionRecord} {startPrice : String}
    (hrecord : record.JustCreated startPrice) :
    db.IdleIff [.upsertAuction record]
      (∃ row, db.auctions record.id = some row ∧ row.JustCreated startPrice) := by
  have hrun : (db.run [.upsertAuction record]).1 = db.upsertAuction record := rfl
  constructor
  · intro h
    rw [hrun] at h
    have hsame := congrFun h.auctions record.id
    rcases hrow : db.auctions record.id with _ | row
    · simp [upsertAuction, hrow] at hsame
    · simp only [upsertAuction, hrow, Function.update_self, Option.some.injEq] at hsame
      refine ⟨row, rfl, ?_⟩
      rw [← hsame]
      exact ⟨hrecord.status, hrecord.highestBidder, hrecord.highestBid,
        hrecord.currentDutchPrice, hrecord.attested, hrecord.sellerProceeds,
        hrecord.royaltyAmount, hrecord.platformFeeAmount⟩
  · rintro ⟨row, hrow, hsays⟩
    rw [hrun]
    simp only [upsertAuction, hrow]
    rw [hrecord.status, ← hsays.status, hrecord.highestBidder, ← hsays.highestBidder,
      hrecord.highestBid, ← hsays.highestBid, hrecord.currentDutchPrice,
      ← hsays.currentDutchPrice, hrecord.attested, ← hsays.attested, hrecord.sellerProceeds,
      ← hsays.sellerProceeds, hrecord.royaltyAmount, ← hsays.royaltyAmount,
      hrecord.platformFeeAmount, ← hsays.platformFeeAmount, ← hrow, Function.update_eq_self]

/-- Marking the bids of a bidder changes nothing if they are marked. -/
theorem idleIff_markBidRefunded {db : Database} {auctionId : ℤ} {bidder : Native} :
    db.IdleIff [.markBidRefunded auctionId bidder] (db.Marked auctionId bidder) := by
  constructor
  · intro h bid hbid hid hbidder
    have hbids := h.bids
    simp only [run, apply, updateBids, List.map_map] at hbids
    have hsame := List.map_inj_left.mp hbids bid hbid
    simp only [Function.comp_apply, hid, hbidder, decide_true, and_self, if_true] at hsame
    exact ⟨(congrArg BidRow.refunded hsame).symm, (congrArg BidRow.isWinning hsame).symm⟩
  · intro h
    have hbids : db.bids.map (fun bid =>
        if bid.auctionId = auctionId ∧ decide (bid.bidder.text = bidder.text) = true then
          { bid with refunded := true, isWinning := false } else bid) = db.bids := by
      refine (List.map_congr_left fun bid hbid => ?_).trans (List.map_id _)
      split
      · next hmine =>
        obtain ⟨hrefunded, hwinning⟩ := h bid hbid hmine.1 (of_decide_eq_true hmine.2)
        rw [← hrefunded, ← hwinning]
        rfl
      · rfl
    change { db with bids := _ } = db
    rw [hbids]

/-- A bid is always written, whatever follows. -/
theorem idleIff_insertBid {db : Database} {bid : BidRow}
    (h : (db.auctions bid.auctionId).isSome) (calls : List DbCall) :
    db.IdleIff (.insertBid bid :: calls) False := by
  refine ⟨fun halike => ?_, False.elim⟩
  have hgrown := length_bids_run { db with bids := db.bids ++ [bid] } calls
  have hlength := congrArg List.length halike.bids
  simp only [run, apply, h, if_true, List.length_map] at hlength
  simp only [List.length_append, List.length_singleton] at hgrown
  omega

theorem orElse_eq_right_iff {x y : Option String} :
    (nonEmpty x <|> y) = y ↔ ∀ v, nonEmpty x = some v → y = some v := by
  rcases nonEmpty x with _ | v
  · simp
  · simp [eq_comm]

/-- The change of a closing. -/
theorem idleIff_updateAuctionOnClose {db : Database} {auctionId : ℤ}
    {winner finalPrice : Option String} :
    db.IdleIff [.updateAuctionOnClose auctionId "closed" winner finalPrice]
      (∀ row, db.auctions auctionId = some row → row.SaysClosed winner finalPrice) := by
  rcases hwinner : nonEmpty winner with _ | bidder
  · refine idleIff_updateAuction (f := fun row => { row with status := "closed" }) ?_ fun row => ?_
    · simp only [apply, hwinner]
    · rcases row with ⟨⟩
      simp [AuctionRecord.SaysClosed, hwinner, eq_comm]
  · rcases hprice : nonEmpty finalPrice with _ | bid
    · refine idleIff_updateAuction (f := fun row => { row with status := "closed" }) ?_
        fun row => ?_
      · simp only [apply, hwinner, hprice]
      · rcases row with ⟨⟩
        simp [AuctionRecord.SaysClosed, hprice, eq_comm]
    · refine idleIff_updateAuction (f := fun row =>
        { row with status := "closed", highestBidder := .string bidder, highestBid := bid }) ?_
        fun row => ?_
      · simp only [apply, hwinner, hprice]
      · rcases row with ⟨⟩
        simp [AuctionRecord.SaysClosed, hwinner, hprice, eq_comm]

theorem idleIff_updateAuctionOnSettle {db : Database} {auctionId : ℤ}
    {proceeds royalty fee : Option String} :
    db.IdleIff [.updateAuctionOnSettle auctionId proceeds royalty fee]
      (∀ row, db.auctions auctionId = some row → row.SaysSettled proceeds royalty fee) := by
  refine idleIff_updateAuction rfl fun row => ?_
  constructor
  · intro h
    exact ⟨(congrArg AuctionRecord.status h).symm,
      orElse_eq_right_iff.mp (congrArg AuctionRecord.sellerProceeds h),
      orElse_eq_right_iff.mp (congrArg AuctionRecord.royaltyAmount h),
      orElse_eq_right_iff.mp (congrArg AuctionRecord.platformFeeAmount h)⟩
  · intro h
    rw [orElse_eq_right_iff.mpr h.sellerProceeds, orElse_eq_right_iff.mpr h.royaltyAmount,
      orElse_eq_right_iff.mpr h.platformFeeAmount, ← h.status]

theorem idleIff_updateAuctionOnCancel {db : Database} {auctionId : ℤ} :
    db.IdleIff [.updateAuctionOnCancel auctionId]
      (∀ row, db.auctions auctionId = some row → row.status = "cancelled") := by
  refine idleIff_updateAuction rfl fun row => ?_
  constructor
  · exact fun h => (congrArg AuctionRecord.status h).symm
  · exact fun h => by rw [← h]

theorem idleIff_updateAuctionOnAttestation {db : Database} {auctionId : ℤ} (hash : Native) :
    db.IdleIff [.updateAuctionOnAttestation auctionId hash]
      (∀ row, db.auctions auctionId = some row →
        row.attested = true ∧ row.attestationHash = hash) := by
  refine idleIff_updateAuction rfl fun row => ?_
  constructor
  · exact fun h => ⟨(congrArg AuctionRecord.attested h).symm,
      (congrArg AuctionRecord.attestationHash h).symm⟩
  · rintro ⟨hattested, hhash⟩
    rw [← hattested, ← hhash]

end Database

theorem forall_eq_ok_iff {α : Type} {x : Except String α} {a : α} {p : α → Prop}
    (h : x = .ok a) : (∀ b, x = .ok b → p b) ↔ p a := by
  constructor
  · exact fun hall => hall a h
  · intro ha b hb
    obtain rfl := Except.ok.inj (h.symm.trans hb)
    exact ha

/-- **What an event writes changes nothing exactly if the tables say it already**, where the
auction of a bid is known. -/
theorem Writes.idleIff {auctionId : ℤ} {data payload : Native} {name : String}
    {writes : List DbCall} (h : Writes auctionId data name writes payload) {db : Database}
    (hbid : name = "bid_placed" → (db.auctions auctionId).isSome) :
    db.IdleIff writes (db.Reflects auctionId data name) := by
  cases h with
  -- one lemma for the query of each handler, and what is read is read alike
  | created hid hprice hrecord =>
    subst hid
    exact (Database.idleIff_upsertAuction hrecord).congr (forall_eq_ok_iff (p := fun price =>
      ∃ row, db.auctions _ = some row ∧ row.JustCreated price) hprice).symm
  | placed hid hbidder hamount hwinning =>
    subst hid
    exact Database.idleIff_insertBid (hbid rfl) _
  | refunded hbidder =>
    exact Database.idleIff_markBidRefunded.congr (forall_eq_ok_iff hbidder).symm
  | outbid hbidder =>
    exact Database.idleIff_markBidRefunded.congr (forall_eq_ok_iff hbidder).symm
  | closed hwinner hprice =>
    refine Database.idleIff_updateAuctionOnClose.congr (Iff.symm ?_)
    exact ⟨fun hall => hall _ _ hwinner hprice, fun hrow winner finalPrice hw hp => by
      obtain rfl := Except.ok.inj (hwinner.symm.trans hw)
      obtain rfl := Except.ok.inj (hprice.symm.trans hp)
      exact hrow⟩
  | settled hproceeds hroyalty hfee =>
    refine Database.idleIff_updateAuctionOnSettle.congr (Iff.symm ?_)
    exact ⟨fun hall => hall _ _ _ hproceeds hroyalty hfee,
      fun hrow proceeds royalty fee hp hr hf => by
        obtain rfl := Except.ok.inj (hproceeds.symm.trans hp)
        obtain rfl := Except.ok.inj (hroyalty.symm.trans hr)
        obtain rfl := Except.ok.inj (hfee.symm.trans hf)
        exact hrow⟩
  | cancelled => exact Database.idleIff_updateAuctionOnCancel
  | attested hhash =>
    refine (Database.idleIff_updateAuctionOnAttestation _).congr (forall_eq_ok_iff (p := fun hash =>
      ∀ row, db.auctions auctionId = some row →
        row.attested = true ∧ row.attestationHash = hash) hhash).symm
  | extended => exact ⟨fun _ => trivial, fun _ => rfl⟩

/-! ### Histories -/

/-- **The tables say already what an event says**, if it is about something that is handled. -/
def SorobanEvent.Reflected (event : SorobanEvent) (db : Database) : Prop :=
  ∀ name auctionId, event.subject = some (name, auctionId) → db.Reflects auctionId event.data name

/-- **A history**: the events that went through, and the tables, when events have been handled
one after the other since the tables were set up. Some may have been refused. -/
inductive Ingested : List SorobanEvent → Database → Prop
  | blank : Ingested [] Database.blank
  | handled {past : List SorobanEvent} {db : Database} (h : Ingested past db) {now : ℤ}
      {event : SorobanEvent} (hok : (db.handle now event).2 = true) :
      Ingested (past ++ [event]) (db.handle now event).1
  | refused {past : List SorobanEvent} {db : Database} (h : Ingested past db) {now : ℤ}
      {event : SorobanEvent} (hno : (db.handle now event).2 = false) :
      Ingested past (db.handle now event).1

variable {past : List SorobanEvent} {db : Database}

theorem Ingested.keeps (h : Ingested past db) : ∀ event ∈ past, db.Keeps event := by
  induction h with
  | blank => exact fun event hevent => absurd hevent List.not_mem_nil
  | @handled past db hpast now event hok ih =>
    intro e he
    rcases List.mem_append.mp he with he | he
    · exact (ih e he).grows (db.grows_handle now event)
    · rw [List.mem_singleton.mp he]
      exact Database.keeps_handle hok
  | @refused past db hpast now event hno ih =>
    exact fun e he => (ih e he).grows (db.grows_handle now event)

/-- What comes again of an event whose traces are kept changes nothing exactly if the tables
say it already. -/
theorem Database.Keeps.handle_again {event : SorobanEvent} (h : db.Keeps event) (now : ℤ) :
    ((db.handle now event).1.Alike db → event.Reflected db) ∧
      (event.Reflected db → (db.handle now event).1 = db) := by
  obtain ⟨now₀, calls₀, hcalls₀, hevents, hbids⟩ := h
  rcases hsubject : event.subject with _ | ⟨name, auctionId⟩
  · constructor
    · intro _ name auctionId hsome
      cases hsubject.symm.trans hsome
    · intro _
      rw [handle, processEvent_of_subject_eq_none hsubject]
      rfl
  · -- what was inserted the first time, and what is written now
    obtain ⟨writes₀, payload₀, hwrites₀, hprocess₀⟩ := writes_of_processEvent hsubject hcalls₀ now₀
    obtain ⟨writes, payload, hwrites, hprocess⟩ := writes_of_processEvent hsubject hcalls₀ now
    obtain rfl := Except.ok.inj (hcalls₀.symm.trans hprocess₀)
    have hstores := hevents _ (List.mem_append_right _ List.mem_cons_self)
    -- the event is stored, so that inserting it again comes to nothing
    have hrun : (db.handle now event).1 = (db.run writes).1 := by
      rw [handle, hprocess]
      exact run_append_insertEvent ⟨storedAs name, auctionId, payload, event.ledger, event.txHash⟩
        hstores writes
    have hidle : db.IdleIff writes (db.Reflects auctionId event.data name) := by
      refine hwrites.idleIff fun hname => ?_
      obtain ⟨bid, hid, hbid⟩ := hwrites₀.exists_insertBid hname
      rw [← hid]
      exact hbids bid (List.mem_append_left _ hbid)
    rw [hrun]
    constructor
    · intro halike name' auctionId' hsubject'
      obtain ⟨rfl, rfl⟩ := Prod.mk.inj (Option.some.inj (hsubject.symm.trans hsubject'))
      exact hidle.of_alike halike
    · exact fun hreflected => hidle.eq_self (hreflected name auctionId hsubject)

/-- **When events may come again.** After every history, handling an event of it once more, at
any time, leaves the tables as they are exactly if they say already what it says; and so
does handling any number of such events. -/
theorem Ingested.idempotent (h : Ingested past db) :
    (∀ event ∈ past, ∀ now, (db.handle now event).1.Alike db ↔ event.Reflected db) ∧
      ∀ again : List (ℤ × SorobanEvent), (∀ e ∈ again, e.2 ∈ past ∧ e.2.Reflected db) →
        again.foldl (fun db e => (db.handle e.1 e.2).1) db = db := by
  constructor
  · intro event hevent now
    obtain ⟨hreflected, heq⟩ := (h.keeps event hevent).handle_again now
    refine ⟨hreflected, fun hr => ?_⟩
    rw [heq hr]
    exact Database.Alike.refl db
  · intro again hagain
    induction again with
    | nil => rfl
    | cons e again ih =>
      obtain ⟨hpast, hreflected⟩ := hagain e List.mem_cons_self
      rw [List.foldl_cons, ((h.keeps e.2 hpast).handle_again e.1).2 hreflected]
      exact ih fun e' he' => hagain e' (List.mem_cons_of_mem _ he')

/-- An event about auction 1, as the handlers expect it, in the transaction of a ledger. -/
def Stage.notice (ledger : ℕ) (name : String) (fields : List (String × Native)) : SorobanEvent :=
  ⟨ledger, [.string name, .bigint 1, .string "GA"], .object fields, none⟩

/-- The auction is created. -/
def Stage.creation : SorobanEvent :=
  notice 500 "auction_created" [("seller", .string "GA"), ("format", .string "english")]

/-- A bid of a hundred is placed. -/
def Stage.placement : SorobanEvent :=
  notice 501 "bid_placed" [("bidder", .string "GB"), ("amount", .string "100"),
    ("timestamp", .number 7)]

/-- The auction is cancelled. -/
def Stage.withdrawal : SorobanEvent := notice 502 "auction_cancelled" []

/-- Handle events one after the other, if they all go through. -/
def Database.handleAll (db : Database) : List SorobanEvent → Option Database
  | [] => some db
  | event :: events =>
    if (db.handle 0 event).2 then handleAll (db.handle 0 event).1 events else none

theorem Ingested.of_handleAll {events : List SorobanEvent} {db' : Database}
    (h : Ingested past db) (hall : db.handleAll events = some db') :
    Ingested (past ++ events) db' := by
  induction events generalizing past db with
  | nil =>
    rw [← Option.some.inj hall, List.append_nil]
    exact h
  | cons event events ih =>
    rw [Database.handleAll] at hall
    split at hall
    · next hok =>
      rw [List.append_cons]
      exact ih (h.handled hok) hall
    · cases hall

/-- The theorem at an auction that was cancelled: the cancellation may come again, and the
creation may not. -/
theorem idempotent_withdrawal : ∃ db : Database,
    Ingested [Stage.creation, Stage.placement, Stage.withdrawal] db ∧
      (∀ now, (db.handle now Stage.withdrawal).1.Alike db) ∧
      ∀ now, ¬(db.handle now Stage.creation).1.Alike db := by
  have hreplay : (Database.blank.handleAll [Stage.creation, Stage.placement,
      Stage.withdrawal]).map (fun db => (db.auctions 1).map (·.status)) =
      some (some "cancelled") := by decide +kernel
  obtain ⟨db, hall, hstatus⟩ := Option.map_eq_some_iff.mp hreplay
  obtain ⟨row, hrow, hcancelled⟩ := Option.map_eq_some_iff.mp hstatus
  have hpast := Ingested.blank.of_handleAll hall
  have hagain := hpast.idempotent.1
  refine ⟨db, hpast, fun now => ?_, fun now halike => ?_⟩
  · refine (hagain Stage.withdrawal (by simp) now).mpr fun name auctionId hsubject => ?_
    obtain ⟨rfl, rfl⟩ := Prod.mk.inj (Option.some.inj hsubject)
    intro row' hrow'
    rw [← Option.some.inj (hrow.symm.trans hrow')]
    exact hcancelled
  · have hreflected := (hagain Stage.creation (by simp) now).mp halike
    obtain ⟨row', hrow', hcreated⟩ := hreflected "auction_created" 1 rfl "0" rfl
    obtain rfl := Option.some.inj (hrow.symm.trans hrow')
    exact absurd (hcancelled.symm.trans hcreated.status) (by decide)

/-- **A bid that comes again is there twice.** -/
theorem exists_notIdempotent : ¬∀ (past : List SorobanEvent) (db : Database), Ingested past db →
    ∀ event ∈ past, ∀ now, (db.handle now event).1.Alike db := by
  intro hclaim
  have hreplay : (Database.blank.handleAll [Stage.creation, Stage.placement]).map (fun db =>
      (db.bids.length, (db.handle 0 Stage.placement).1.bids.length)) = some (1, 2) := by
    decide +kernel
  obtain ⟨db, hall, hlengths⟩ := Option.map_eq_some_iff.mp hreplay
  obtain ⟨hbefore, hafter⟩ := Prod.mk.inj hlengths
  have halike := hclaim _ db (Ingested.blank.of_handleAll hall) Stage.placement (by simp) 0
  have hlength := congrArg List.length halike.bids
  rw [List.length_map, List.length_map, hbefore, hafter] at hlength
  cases hlength

end UrithiBidz
