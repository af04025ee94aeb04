import UrithiBidz.Indexer.Handlers
import UrithiBidz.Library.Fallible

/-!
# What an event writes

A handler reads, asks for some changes and stores the event. `UrithiBidz.Writes` lists the
nine of them: for each name the changes that are asked for, and what is stored as the
payload. `UrithiBidz.writes_of_processEvent` says that a successful processing is one of
these, with the storing at its end, under a name that is that of the event but for two
(`UrithiBidz.storedAs`).

The time of the processing matters only for a bid that does not say when it was placed. So an
event that was processed once is processed at any time, which is what makes it possible
to ask what happens when it comes again.
-/

namespace UrithiBidz

/-! ### Names -/

/-- The names that have handlers. -/
def handledNames : List String :=
  ["auction_created", "bid_placed", "bid_refunded", "auction_closed", "auction_settled",
    "auction_cancelled", "attestation_recorded", "auc_ext", "bid_out"]

/-- The name and the auction of an event that is handled. -/
def SorobanEvent.subject (event : SorobanEvent) : Option (String × ℤ) :=
  match event.topics with
  | eventType :: auctionId :: _ =>
    if eventType.text ∈ handledNames then (auctionIdOf auctionId).map (eventType.text, ·) else none
  | _ => none

/-- The name under which an event is stored. -/
def storedAs : String → String
  | "auc_ext" => "auction_extended"
  | "bid_out" => "bid_outbid"
  | name => name

theorem handlers_eq_none {name : String} (h : name ∉ handledNames) (now : ℤ) :
    handlers now name = none := by
  unfold handlers
  split
  all_goals first
    | rfl
    | exact absurd (by decide) h

theorem exists_handler {name : String} (h : name ∈ handledNames) (now : ℤ) :
    ∃ handler, handlers now name = some handler := by
  simp only [handledNames, List.mem_cons, List.not_mem_nil, or_false] at h
  rcases h with rfl | rfl | rfl | rfl | rfl | rfl | rfl | rfl | rfl <;> exact ⟨_, rfl⟩

/-! ### Reading -/

theorem exists_fieldOr {data x default : Native} {name : String}
    (h : fieldOr data name default = .ok x) (other : Native) :
    ∃ x', fieldOr data name other = .ok x' := by
  obtain ⟨v, hv, -⟩ := Except.bind_eq_ok_iff.mp h
  exact ⟨v.orElse other, Except.bind_eq_ok_iff.mpr ⟨v, hv, rfl⟩⟩

/-! ### The writing of each handler -/

/-- A row as it is written for a new auction. -/
structure AuctionRecord.JustCreated (row : AuctionRecord) (startPrice : String) : Prop where
  status : row.status = "created"
  highestBidder : row.highestBidder = .undefined
  highestBid : row.highestBid = "0"
  currentDutchPrice : row.currentDutchPrice = startPrice
  attested : row.attested = false
  sellerProceeds : row.sellerProceeds = none
  royaltyAmount : row.royaltyAmount = none
  platformFeeAmount : row.platformFeeAmount = none

/-- **What an event of a name writes** for an auction, given its payload: the changes that are
asked for, and what is stored as the payload. -/
inductive Writes (auctionId : ℤ) (data : Native) : String → List DbCall → Native → Prop
  | created {record : AuctionRecord} {startPrice : String} (hid : record.id = auctionId)
      (hprice : textOr data "start_price" "0" = .ok startPrice)
      (hrecord : record.JustCreated startPrice) :
      Writes auctionId data "auction_created" [.upsertAuction record] record.toNative
  | placed {bid : BidRow} (hid : bid.auctionId = auctionId)
      (hbidder : fieldOr data "bidder" (.string "") = .ok bid.bidder)
      (hamount : textOr data "amount" "0" = .ok bid.amount) (hwinning : bid.isWinning = true) :
      Writes auctionId data "bid_placed"
        [.insertBid bid, .updateAuctionOnBid auctionId bid.bidder bid.amount] bid.toNative
  | refunded {bidder : Native} (hbidder : fieldOr data "bidder" (.string "") = .ok bidder) :
      Writes auctionId data "bid_refunded" [.markBidRefunded auctionId bidder] data
  | outbid {bidder : Native} (hbidder : fieldOr data "bidder" (.string "") = .ok bidder) :
      Writes auctionId data "bid_out" [.markBidRefunded auctionId bidder] data
  | closed {winner finalPrice : Option String} (hwinner : textOf? data "winner" = .ok winner)
      (hprice : textOf? data "final_price" = .ok finalPrice) :
      Writes auctionId data "auction_closed"
        [.updateAuctionOnClose auctionId "closed" winner finalPrice] data
  | settled {proceeds royalty fee : Option String}
      (hproceeds : textOf? data "seller_proceeds" = .ok proceeds)
      (hroyalty : textOf? data "royalty_amount" = .ok royalty)
      (hfee : textOf? data "platform_fee_amount" = .ok fee) :
      Writes auctionId data "auction_settled"
        [.updateAuctionOnSettle auctionId proceeds royalty fee] data
  | cancelled : Writes auctionId data "auction_cancelled" [.updateAuctionOnCancel auctionId] data
  | attested {hash : Native} (hhash : fieldOr data "attestation_hash" (.string "") = .ok hash) :
      Writes auctionId data "attestation_recorded"
        [.updateAuctionOnAttestation auctionId hash] data
  | extended : Writes auctionId data "auc_ext" [] data

theorem Writes.exists_insertBid {auctionId : ℤ} {data payload : Native} {name : String}
    {writes : List DbCall} (h : Writes auctionId data name writes payload)
    (hname : name = "bid_placed") :
    ∃ bid : BidRow, bid.auctionId = auctionId ∧ .insertBid bid ∈ writes := by
  cases h with
  | placed hid hbidder hamount hwinning => exact ⟨_, hid, List.mem_cons_self⟩
  | _ => exact absurd hname (by decide)

variable {auctionId : ℤ} {data : Native} {ledgerSeq : ℕ} {txHash : Option String}
variable {calls : List DbCall}

theorem Handlers.writes_auctionCreated
    (h : auctionCreated auctionId data ledgerSeq txHash = .ok calls) :
    ∃ writes payload, Writes auctionId data "auction_created" writes payload ∧
      calls = writes ++
        [.insertEvent ⟨"auction_created", auctionId, payload, ledgerSeq, txHash⟩] := by
  simp only [auctionCreated, Except.bind_eq_ok_iff] at h
  obtain ⟨seller, -, creator, -, format, -, itemType, -, contract, -, token, -, custodian, -,
    hash, -, paymentToken, -, reserve, -, royalty, -, fee, -, start, -, ending, -, commit, -,
    reveal, -, uri, -, increment, -, price, hprice, decay, -, price', hprice', h⟩ := h
  obtain rfl := Except.ok.inj (hprice.symm.trans hprice')
  exact ⟨_, _, .created rfl hprice ⟨rfl, rfl, rfl, rfl, rfl, rfl, rfl, rfl⟩,
    (Except.pure_eq_ok_iff.mp h).symm⟩

/-- A bid is written at any time, if it was at one. -/
theorem Handlers.writes_bidPlaced {now₀ : ℤ} {calls₀ : List DbCall}
    (h : bidPlaced now₀ auctionId data ledgerSeq txHash = .ok calls₀) (now : ℤ) :
    ∃ writes payload, Writes auctionId data "bid_placed" writes payload ∧
      bidPlaced now auctionId data ledgerSeq txHash = .ok (writes ++
        [.insertEvent ⟨"bid_placed", auctionId, payload, ledgerSeq, txHash⟩]) := by
  simp only [bidPlaced, Except.bind_eq_ok_iff] at h
  obtain ⟨bidder, hbidder, amount, hamount, format, hformat, time₀, htime₀, -⟩ := h
  obtain ⟨time, htime⟩ := exists_fieldOr htime₀ (.number now)
  let bid : BidRow := ⟨auctionId, bidder, amount, mapFormat format, time, true, false⟩
  have hplaced : Writes auctionId data "bid_placed" [.insertBid bid,
      .updateAuctionOnBid auctionId bidder amount] bid.toNative :=
    .placed rfl hbidder hamount rfl
  refine ⟨_, _, hplaced, ?_⟩
  simp only [bidPlaced, Except.bind_eq_ok_iff]
  exact ⟨bidder, hbidder, amount, hamount, format, hformat, time, htime, rfl⟩

/-- What the handler of a name does, which it does at any time. -/
theorem writes_of_handlers {now₀ : ℤ} {name : String} {handler₀ : Handler}
    (hlookup : handlers now₀ name = some handler₀)
    (h : handler₀ auctionId data ledgerSeq txHash = .ok calls) (now : ℤ) :
    ∃ handler writes payload, handlers now name = some handler ∧
      Writes auctionId data name writes payload ∧
      handler auctionId data ledgerSeq txHash = .ok (writes ++
        [.insertEvent ⟨storedAs name, auctionId, payload, ledgerSeq, txHash⟩]) := by
  unfold handlers at hlookup
  split at hlookup <;> cases hlookup
  · obtain ⟨writes, payload, hwrites, rfl⟩ := Handlers.writes_auctionCreated h
    exact ⟨_, writes, payload, rfl, hwrites, h⟩
  · -- a bid is stored with the time of its handling, so these are the writes of now
    obtain ⟨writes, payload, hwrites, hnow⟩ := Handlers.writes_bidPlaced h now
    exact ⟨_, writes, payload, rfl, hwrites, hnow⟩
  · obtain ⟨bidder, hbidder, hcalls⟩ := Except.bind_eq_ok_iff.mp h
    exact ⟨_, _, _, rfl, .refunded hbidder, by rw [h, ← Except.ok.inj hcalls]; rfl⟩
  · obtain ⟨winner, hwinner, hrest⟩ := Except.bind_eq_ok_iff.mp h
    obtain ⟨price, hprice, hcalls⟩ := Except.bind_eq_ok_iff.mp hrest
    exact ⟨_, _, _, rfl, .closed hwinner hprice, by rw [h, ← Except.ok.inj hcalls]; rfl⟩
  · obtain ⟨proceeds, hproceeds, hrest⟩ := Except.bind_eq_ok_iff.mp h
    obtain ⟨royalty, hroyalty, hrest⟩ := Except.bind_eq_ok_iff.mp hrest
    obtain ⟨fee, hfee, hcalls⟩ := Except.bind_eq_ok_iff.mp hrest
    exact ⟨_, _, _, rfl, .settled hproceeds hroyalty hfee, by
      rw [h, ← Except.ok.inj hcalls]; rfl⟩
  · exact ⟨_, _, _, rfl, .cancelled, rfl⟩
  · obtain ⟨hash, hhash, hcalls⟩ := Except.bind_eq_ok_iff.mp h
    exact ⟨_, _, _, rfl, .attested hhash, by rw [h, ← Except.ok.inj hcalls]; rfl⟩
  · exact ⟨_, _, _, rfl, .extended, rfl⟩
  · obtain ⟨bidder, hbidder, hcalls⟩ := Except.bind_eq_ok_iff.mp h
    exact ⟨_, _, _, rfl, .outbid hbidder, by rw [h, ← Except.ok.inj hcalls]; rfl⟩

/-! ### The writing of an event -/

/-- An event that is not about anything that is handled is left alone. -/
theorem processEvent_of_subject_eq_none {event : SorobanEvent} (h : event.subject = none)
    (now : ℤ) : processEvent now event = .ok [] := by
  rw [processEvent]
  split
  · next eventType auctionId rest htopics =>
    simp only [SorobanEvent.subject, htopics] at h
    split at h
    · rw [Option.map_eq_none_iff.mp h]
      rfl
    · next hname =>
      rw [handlers_eq_none hname]
      split
      · next hlookup => cases hlookup
      · rfl
  · rfl

/-- Any other goes to the handler of its name. -/
theorem processEvent_of_subject {event : SorobanEvent} {name : String}
    (h : event.subject = some (name, auctionId)) (now : ℤ) :
    ∃ handler, handlers now name = some handler ∧
      processEvent now event = handler auctionId event.data event.ledger event.txHash := by
  unfold SorobanEvent.subject at h
  split at h
  · next eventType second rest htopics =>
    split at h
    · next hname =>
      obtain ⟨id, hid, hsubject⟩ := Option.map_eq_some_iff.mp h
      obtain ⟨rfl, rfl⟩ := Prod.mk.inj hsubject
      obtain ⟨handler, hlookup⟩ := exists_handler hname now
      exact ⟨handler, hlookup, by simp only [processEvent, htopics, hid, hlookup]⟩
    · cases h
  · cases h

/-- **An event that was processed once writes the same at any time**, up to the time of a bid
that does not say when it was placed. -/
theorem writes_of_processEvent {event : SorobanEvent} {name : String}
    (hsubject : event.subject = some (name, auctionId)) {now₀ : ℤ} {calls₀ : List DbCall}
    (h : processEvent now₀ event = .ok calls₀) (now : ℤ) :
    ∃ writes payload, Writes auctionId event.data name writes payload ∧
      processEvent now event = .ok (writes ++
        [.insertEvent ⟨storedAs name, auctionId, payload, event.ledger, event.txHash⟩]) := by
  obtain ⟨handler₀, hlookup₀, hprocess₀⟩ := processEvent_of_subject hsubject now₀
  obtain ⟨handler, hlookup, hprocess⟩ := processEvent_of_subject hsubject now
  obtain ⟨handler', writes, payload, hlookup', hwrites, hhandler⟩ :=
    writes_of_handlers hlookup₀ (hprocess₀.symm.trans h) now
  obtain rfl := Option.some.inj (hlookup.symm.trans hlookup')
  exact ⟨writes, payload, hwrites, hprocess.trans hhandler⟩

end UrithiBidz
