import UrithiBidz.Guarantees.Bidding
import UrithiBidz.Guarantees.Finalization
import UrithiBidz.Guarantees.Idempotence
import UrithiBidz.Guarantees.Isolation
import UrithiBidz.Guarantees.Mirror

/-!
# The leader in the table of bids

The table of bids is to show who leads: the row of the highest bid is winning, and the rows of
bidders who were outbid are refunded. Three writes maintain the two flags. A bid is inserted as
winning, then all winning rows of the auction are cleared, and when a bidder is outbid or
withdraws a refund, all rows of that bidder are marked.

The second write was meant for the rows of the bids before, and comes after the first. So it
clears the row of the new bid as well, and no row is ever winning
(`UrithiBidz.Database.handle_unled`). For every prefix of the news of an English auction the
table is right exactly if there is no bid in it yet (`UrithiBidz.Run.leaderNamed_iff`).

The contract does not publish its events as the handlers expect them, which is another matter.
Here they are delivered under the names and with the fields that the handlers read:
`UrithiBidz.BidNews.announce`.
-/

namespace UrithiBidz

variable {Address : Type}

/-! ### The news of an auction -/

variable (Address) in
/-- What the contract publishes of the bidding. -/
inductive BidNews
  /-- A bid was placed. -/
  | placed (bidder : Address) (amount : I128) (timestamp : U64) (format : String)
  /-- A bidder was outbid. -/
  | outbid (bidder : Address) (amount : I128)
  /-- A refund was withdrawn. -/
  | refunded (bidder : Address) (amount : I128)
  deriving DecidableEq

/-- The news that an event is of an auction, if it is any. -/
def Event.bidNews (id : U64) (event : Event Address) : Option (BidNews Address) :=
  match event.topics, event.data with
  | [.symbol "bid_new", .u64 id', .address bidder],
      .tuple [.i128 amount, .u64 timestamp, .symbol format] =>
    if id' = id then some (.placed bidder amount timestamp format) else none
  | [.symbol "bid_out", .u64 id', .address bidder], .tuple [.i128 amount] =>
    if id' = id then some (.outbid bidder amount) else none
  | [.symbol "bid_ref", .u64 id', .address bidder], .tuple [.i128 amount] =>
    if id' = id then some (.refunded bidder amount) else none
  | _, _ => none

/-- **The news of an auction**, in the order in which a run publishes it. -/
def bidNewsOf (id : U64) (tr : List (Invocation Address)) : List (BidNews Address) :=
  tr.flatMap fun i => i.outcome.events.filterMap (·.bidNews id)

/-- The bid that is placed. -/
def BidNews.bid : BidNews Address → Option (Address × I128)
  | .placed bidder amount _ _ => some (bidder, amount)
  | _ => none

/-- The bids in the news. -/
def bidsIn (news : List (BidNews Address)) : List (Address × I128) := news.filterMap BidNews.bid

/-- The name under which a handler waits for the news, and the fields that it reads. -/
def BidNews.fields (text : Address → String) : BidNews Address → String × List (String × Native)
  | .placed bidder amount timestamp format =>
    ("bid_placed", [("bidder", .string (text bidder)), ("amount", .string (toString amount.val)),
      ("timestamp", .number timestamp.val), ("format", .string format)])
  | .outbid bidder amount =>
    ("bid_out", [("bidder", .string (text bidder)), ("amount", .string (toString amount.val))])
  | .refunded bidder amount =>
    ("bid_refunded",
      [("bidder", .string (text bidder)), ("amount", .string (toString amount.val))])

/-- The news of an auction as a handler expects it, from a transaction in a ledger. -/
def BidNews.announce (text : Address → String) (id : U64) (ledger : ℕ) (txHash : Option String)
    (news : BidNews Address) : SorobanEvent where
  ledger := ledger
  topics := [.string (news.fields text).1, .bigint id.val,
    .string (match news with
      | .placed bidder _ _ _ => text bidder
      | .outbid bidder _ => text bidder
      | .refunded bidder _ => text bidder)]
  data := .object (news.fields text).2
  txHash := txHash

/-! ### The bids in the news are the bids -/

variable {id : U64}

theorem bidsIn_append (news news' : List (BidNews Address)) :
    bidsIn (news ++ news') = bidsIn news ++ bidsIn news' :=
  List.filterMap_append

/-- Other events than that of a bid are no bids. -/
theorem bidsIn_other {events : List (Event Address)} (h : ∀ e ∈ events, e.Other) :
    bidsIn (events.filterMap (·.bidNews id)) = [] := by
  refine List.filterMap_eq_nil_iff.mpr fun news hnews => ?_
  obtain ⟨e, he, hnews⟩ := List.mem_filterMap.mp hnews
  obtain ⟨name, hname, topics, htopics⟩ := h e he
  unfold Event.bidNews at hnews
  split at hnews
  · next heq _ =>
    obtain ⟨hbid, -⟩ := List.cons.inj (htopics.symm.trans heq)
    rw [ScVal.symbol.inj hbid] at hname
    exact absurd hname (by decide)
  · rw [← Option.some.inj (Option.ite_none_right_eq_some.mp hnews).2]
    rfl
  · rw [← Option.some.inj (Option.ite_none_right_eq_some.mp hnews).2]
    rfl
  · cases hnews

theorem Call.bidOn_eq_none {c : Call Address} (h : c.placesBid = false) : c.bidOn id = none := by
  cases c with
  | placeBid => cases h
  | _ => rfl

variable [DecidableEq Address]

/-- The bids in what a call publishes: its own, if it is one. -/
theorem bidsIn_events {env : Env Address} {s : Storage Address} {c : Call Address}
    {o : Outcome Address} (h : invoke env s c = .ok o)
    (hbuy : ∀ buyer maxPrice, c ≠ .buyNow id buyer maxPrice) :
    bidsIn (o.events.filterMap (·.bidNews id)) = (c.bidOn id).toList := by
  have hpublishes := publishes_of_invoke h
  generalize o.events = events at hpublishes ⊢
  cases hpublishes with
  | silent hc hother => rw [bidsIn_other hother, Call.bidOn_eq_none hc, Option.toList_none]
  | @placed id' now bidder amount before hother =>
    rw [List.filterMap_append, bidsIn_append, bidsIn_other hother, List.nil_append]
    by_cases hid : id' = id
    · simp [Event.bidNews, emitBidPlaced, bidsIn, Call.bidOn, BidNews.bid, formatToSymbol, hid]
    · simp [Event.bidNews, emitBidPlaced, bidsIn, Call.bidOn, formatToSymbol, hid]
  | @bought id' now buyer maxPrice price later hother =>
    have hid : id' ≠ id := by
      rintro rfl
      exact hbuy buyer maxPrice rfl
    have hnone : (emitBidPlaced ⟨id', buyer, price, now, .dutch⟩).bidNews id = none := if_neg hid
    rw [List.filterMap_cons_none hnone, bidsIn_other hother]
    rfl

variable {H : Host Address} {tr : List (Invocation Address)} {w : World H}

/-- **The bids in the news of an English auction are its bids.** -/
theorem Run.bidsIn_bidNewsOf (h : Run H tr w) {a : Auction Address}
    (ha : w.storage.auctions id = some a) (hf : a.format = .english) :
    bidsIn (bidNewsOf id tr) = bidsOf id tr := by
  rw [bidsIn, bidNewsOf, List.filterMap_flatMap, bidsOf, List.filterMap_eq_flatMap_toList]
  refine List.flatMap_congr fun i hi => ?_
  obtain ⟨-, t, t', -, hs, -⟩ := History.of_mem h hi
  obtain ⟨-, -, hret, -, -⟩ := hs.returns
  refine bidsIn_events hret fun buyer maxPrice hc => ?_
  -- an auction that is bought is Dutch, and stays so
  rw [hc] at hret
  obtain ⟨a₀, ha₀, ok, -⟩ := buyNow_eq_ok_iff.mp hret
  obtain ⟨a₁, ha₁, hterms₁⟩ := h.record_step .refl (fun hstep => hstep.keepsTerms) i hi a₀ ha₀
  obtain ⟨a₂, ha₂, hterms₂⟩ := h.record_since .refl (fun hstep => hstep.keepsTerms)
    (fun _ _ _ h₁ h₂ => h₁.trans h₂) i hi a₁ ha₁
  obtain rfl := Option.some.inj (ha.symm.trans ha₂)
  cases hf.symm.trans ((hterms₁.trans hterms₂).format.trans ok.format)

/-! ### The rows of an auction -/

namespace Database

variable {db db' : Database} {n : ℤ}

/-- The bids of an auction, as far as the table knows them. -/
def bidsOn (db : Database) (auctionId : ℤ) : List BidRow :=
  db.bids.filter fun bid => bid.auctionId = auctionId

theorem mem_bidsOn {bid : BidRow} : bid ∈ db.bidsOn n ↔ bid ∈ db.bids ∧ bid.auctionId = n := by
  rw [bidsOn, List.mem_filter, decide_eq_true_eq]

/-- **Nobody leads**: no row of the auction is winning. -/
def Unled (db : Database) (auctionId : ℤ) : Prop :=
  ∀ bid ∈ db.bidsOn auctionId, bid.isWinning = false

/-- A query makes no row of an auction winning, unless it inserts one. -/
theorem Unled.apply {call : DbCall} (hunled : db.Unled n) (h : db.apply call = some db')
    (hcall : ∀ bid, call = .insertBid bid → bid.auctionId ≠ n) : db'.Unled n := by
  intro bid hbid
  obtain ⟨hmem, hid⟩ := mem_bidsOn.mp hbid
  rcases bids_apply h with ⟨new, rfl, hbids⟩ | ⟨f, hbids, hf⟩
  · rw [hbids] at hmem
    rcases List.mem_append.mp hmem with hmem | hmem
    · exact hunled bid (mem_bidsOn.mpr ⟨hmem, hid⟩)
    · rw [List.mem_singleton.mp hmem] at hid
      exact absurd hid (hcall new rfl)
  · rw [hbids] at hmem
    obtain ⟨old, hold, rfl⟩ := List.mem_map.mp hmem
    obtain ⟨hsame, hwins⟩ := hf old
    have hlost := hunled old (mem_bidsOn.mpr ⟨hold, hsame.symm.trans hid⟩)
    exact Bool.eq_false_iff.mpr fun hwinning => Bool.eq_false_iff.mp hlost (hwins hwinning)

theorem Unled.run {calls : List DbCall} (hunled : db.Unled n)
    (hcalls : ∀ bid, .insertBid bid ∈ calls → bid.auctionId ≠ n) : (db.run calls).1.Unled n :=
  run_induct (P := fun db => db.Unled n) hunled fun _ hmem _ _ hunled h =>
    hunled.apply h fun bid hcall => hcalls bid (hcall ▸ hmem)

/-- After `updateAuctionOnBid` nobody leads, the new bid included. -/
theorem unled_updateAuctionOnBid {bidder : Native} {amount : String}
    (h : db.apply (.updateAuctionOnBid n bidder amount) = some db') : db'.Unled n := by
  intro bid hbid
  obtain ⟨hmem, hid⟩ := mem_bidsOn.mp hbid
  rw [← Option.some.inj h] at hmem
  obtain ⟨old, -, rfl⟩ := List.mem_map.mp hmem
  split
  · rfl
  · next hno =>
    rw [if_neg hno] at hid
    exact Bool.eq_false_iff.mpr fun hwinning => hno ⟨hid, hwinning⟩

/-- **A bid that is placed does not lead**: its row is inserted, and cleared with the others. -/
theorem Unled.placed {bid : BidRow} {bidder : Native} {amount : String} {calls : List DbCall}
    (hunled : db.Unled n) (hcalls : ∀ new, .insertBid new ∈ calls → new.auctionId ≠ n) :
    (db.run (.insertBid bid :: .updateAuctionOnBid bid.auctionId bidder amount :: calls)).1.Unled
      n := by
  rcases eq_or_ne bid.auctionId n with rfl | hne
  · rw [Database.run]
    split
    · next db₁ _ =>
      rw [Database.run]
      split
      · next db₂ h => exact (unled_updateAuctionOnBid h).run hcalls
      · next hrefused => cases hrefused
    · exact hunled
  · refine hunled.run fun new hnew => ?_
    rcases List.mem_cons.mp hnew with hnew | hnew
    · rw [DbCall.insertBid.inj hnew]
      exact hne
    · rcases List.mem_cons.mp hnew with hnew | hnew
      · cases hnew
      · exact hcalls new hnew

/-- **Nobody ever leads**, whatever is handled, and whether it goes through or not. -/
theorem handle_unled (hunled : db.Unled n) (now : ℤ) (event : SorobanEvent) :
    (db.handle now event).1.Unled n := by
  rcases hcalls : processEvent now event with message | calls
  · rw [handle, hcalls]
    exact hunled
  rw [handle, hcalls]
  rcases hsubject : event.subject with _ | ⟨name, auctionId⟩
  · rw [processEvent_of_subject_eq_none hsubject] at hcalls
    rw [← Except.ok.inj hcalls]
    exact hunled
  obtain ⟨writes, payload, hwrites, hprocess⟩ := writes_of_processEvent hsubject hcalls now
  obtain rfl := Except.ok.inj (hcalls.symm.trans hprocess)
  cases hwrites with
  | placed hid =>
    rw [← hid]
    refine hunled.placed fun new hnew => ?_
    cases List.mem_singleton.mp hnew
  | _ => exact hunled.run fun new hnew => by simp at hnew

theorem bidsOn_run {calls : List DbCall} (hnone : db.bidsOn n = [])
    (hcalls : ∀ bid, .insertBid bid ∉ calls) : (db.run calls).1.bidsOn n = [] := by
  refine run_induct (P := fun db => db.bidsOn n = []) hnone fun call hmem db db' hnone h => ?_
  rcases bids_apply h with ⟨new, rfl, -⟩ | ⟨f, hbids, hf⟩
  · exact absurd hmem (hcalls new)
  · refine List.eq_nil_iff_forall_not_mem.mpr fun bid hbid => ?_
    obtain ⟨hrow, hid⟩ := mem_bidsOn.mp hbid
    rw [hbids] at hrow
    obtain ⟨old, hold, rfl⟩ := List.mem_map.mp hrow
    have hmine := mem_bidsOn.mpr ⟨hold, (hf old).1.symm.trans hid⟩
    rw [hnone] at hmine
    exact List.not_mem_nil hmine

end Database

omit [DecidableEq Address] in
/-- News that is no bid marks bids. -/
theorem BidNews.processEvent_announce {news : BidNews Address} (h : news.bid = none)
    (text : Address → String) (ledger : ℕ) (txHash : Option String) (now : ℤ) :
    ∃ bidder event, processEvent now (news.announce text id ledger txHash) =
      .ok [.markBidRefunded (jsNumber id.val) bidder, .insertEvent event] := by
  cases news with
  | placed => cases h
  | outbid bidder amount => exact ⟨_, _, rfl⟩
  | refunded bidder amount => exact ⟨_, _, rfl⟩

/-! ### The leader -/

/-- **The rows of an auction name the leader**, given its bids. -/
structure LeaderNamed (text : Address → String) (auctionId : ℤ) (bids : List (Address × I128))
    (db : Database) : Prop where
  /-- If there is a bid, one row is winning, it is that of the last bid, and it is not marked. -/
  led : ∀ bid ∈ bids.getLast?, ∃ row, (db.bidsOn auctionId).filter (·.isWinning) = [row] ∧
    row.bidder.text = text bid.1 ∧ row.amount = toString bid.2.val ∧ row.refunded = false
  /-- A row that is marked is that of a bid before. -/
  marked : ∀ row ∈ db.bidsOn auctionId, row.refunded = true → ∃ bid ∈ bids.dropLast,
    row.bidder.text = text bid.1 ∧ row.amount = toString bid.2.val

/-- **The table names the leader exactly while there is none.** The news of an English auction
is delivered, up to any point, to tables that have no bid of the auction yet. -/
theorem Run.leaderNamed_iff (h : Run H tr w) {a : Auction Address}
    (ha : w.storage.auctions id = some a) (hf : a.format = .english)
    {news : List (BidNews Address)} (hnews : news <+: bidNewsOf id tr) {db : Database}
    (hdb : db.bidsOn (jsNumber id.val) = []) (text : Address → String)
    {delivered : List (ℤ × SorobanEvent)} (hdelivered : List.Forall₂ (fun n d =>
      ∃ ledger txHash, d.2 = BidNews.announce text id ledger txHash n) news delivered) :
    bidsIn news <+: bidsOf id tr ∧
      (LeaderNamed text (jsNumber id.val) (bidsIn news)
        (delivered.foldl (fun db d => (db.handle d.1 d.2).1) db) ↔ bidsIn news = []) := by
  constructor
  · obtain ⟨rest, hrest⟩ := hnews
    rw [← h.bidsIn_bidNewsOf ha hf, ← hrest, bidsIn_append]
    exact List.prefix_append _ _
  constructor
  · intro hnamed
    -- no event that is handled leaves a bid that leads
    have hunled : (delivered.foldl (fun db d => (db.handle d.1 d.2).1) db).Unled
        (jsNumber id.val) := by
      have hstart : db.Unled (jsNumber id.val) := fun bid hbid => by
        rw [hdb] at hbid
        exact absurd hbid List.not_mem_nil
      clear hdelivered hnamed hdb
      induction delivered generalizing db with
      | nil => exact hstart
      | cons d delivered ih => exact ih (Database.handle_unled hstart d.1 d.2)
    by_contra hbids
    obtain ⟨row, hrow, -⟩ := hnamed.led _ (List.getLast?_eq_getLast_of_ne_nil hbids)
    have hwins : row ∈ [row] := List.mem_singleton_self row
    rw [← hrow, List.mem_filter] at hwins
    exact absurd (hwins.2.symm.trans (hunled row hwins.1)) (by decide)
  · intro hbids
    -- news without a bid inserts none
    have hnone : (delivered.foldl (fun db d => (db.handle d.1 d.2).1) db).bidsOn
        (jsNumber id.val) = [] := by
      clear hnews
      induction hdelivered generalizing db with
      | nil => exact hdb
      | @cons n d news delivered hd _ ih =>
        obtain ⟨ledger, txHash, hd⟩ := hd
        have hall := List.filterMap_eq_nil_iff.mp hbids
        have hfirst := hall n List.mem_cons_self
        refine ih ?_ (List.filterMap_eq_nil_iff.mpr fun m hm => hall m (List.mem_cons_of_mem _ hm))
        obtain ⟨bidder, event, hprocess⟩ := n.processEvent_announce hfirst text ledger txHash d.1
        change (db.handle d.1 d.2).1.bidsOn _ = []
        rw [Database.handle, hd, hprocess]
        exact Database.bidsOn_run hdb (by simp)
    rw [hbids]
    refine ⟨fun bid hbid => absurd hbid (Option.not_mem_none bid), fun row hrow => ?_⟩
    rw [hnone] at hrow
    exact absurd hrow List.not_mem_nil

/-- The tables when the auction has been created. -/
def Stage.listed : Database :=
  (Database.blank.handle 0 ⟨500, [.string "auction_created", .bigint 0, .string "2"],
    .object [("seller", .string "2"), ("format", .string "english")], none⟩).1

/-- News as it is delivered from a ledger. -/
def Stage.announced (news : List (BidNews ℕ)) : List (ℤ × SorobanEvent) :=
  news.map fun n => (0, n.announce toString 0 501 none)

theorem Stage.forall₂_announced (news : List (BidNews ℕ)) : List.Forall₂ (fun n d =>
    ∃ ledger txHash, d.2 = BidNews.announce toString 0 ledger txHash n) news (announced news) :=
  List.forall₂_map_right_iff.mpr (List.forall₂_same.mpr fun _ _ => ⟨501, none, rfl⟩)

/-- The theorem at a first bid. -/
theorem leaderNamed_iff_firstBid : ∃ (tr : List (Invocation ℕ)) (w : World Stage.host),
    Run Stage.host tr w ∧ bidsIn (bidNewsOf 0 tr) = [(3, .of 100)] ∧
      ¬LeaderNamed toString 0 (bidsIn (bidNewsOf 0 tr))
        ((Stage.announced (bidNewsOf 0 tr)).foldl (fun db d => (db.handle d.1 d.2).1)
          Stage.listed) := by
  have hreplay : (replay Stage.start Stage.firstBid).map (fun r =>
      (bidsIn (bidNewsOf 0 r.1), (r.2.storage.auctions 0).map (·.format))) =
      some ([(3, .of 100)], some .english) := by decide +kernel
  obtain ⟨tr, w, hrun, hv⟩ := exists_run_of_replay Stage.world_refl rfl hreplay
  obtain ⟨hbids, hformat⟩ := Prod.mk.inj hv
  obtain ⟨a, ha, hf⟩ := Option.map_eq_some_iff.mp hformat
  refine ⟨tr, w, hrun, hbids, fun hnamed => ?_⟩
  have hempty := (hrun.leaderNamed_iff ha hf (List.prefix_refl _)
    (List.eq_nil_of_length_eq_zero (by decide +kernel)) toString
    (Stage.forall₂_announced _)).2.mp hnamed
  rw [hbids] at hempty
  cases hempty

/-- **The table does not know the leader**: after the first bid no row of the auction is
winning. -/
theorem exists_unled : ¬∀ (tr : List (Invocation ℕ)) (w : World Stage.host),
    Run Stage.host tr w → ∀ a, w.storage.auctions 0 = some a → a.format = .english →
      ∀ news, news <+: bidNewsOf 0 tr → ∀ db : Database, (db.auctions 0).isSome →
        db.bidsOn 0 = [] → ∀ delivered : List (ℤ × SorobanEvent), List.Forall₂ (fun n d =>
          ∃ ledger txHash, d.2 = BidNews.announce toString 0 ledger txHash n) news delivered →
            LeaderNamed toString 0 (bidsIn news)
              (delivered.foldl (fun db d => (db.handle d.1 d.2).1) db) := by
  intro hclaim
  have hreplay : (replay Stage.start Stage.firstBid).map (fun r =>
      (bidsIn (bidNewsOf 0 r.1), (r.2.storage.auctions 0).map (·.format),
        ((((Stage.announced (bidNewsOf 0 r.1)).foldl (fun db d => (db.handle d.1 d.2).1)
          Stage.listed).bidsOn 0).map (·.isWinning)))) =
      some ([(3, .of 100)], some .english, [false]) := by decide +kernel
  obtain ⟨tr, w, hrun, hv⟩ := exists_run_of_replay Stage.world_refl rfl hreplay
  simp only [Prod.mk.injEq] at hv
  obtain ⟨hbids, hformat, hlost⟩ := hv
  obtain ⟨a, ha, hf⟩ := Option.map_eq_some_iff.mp hformat
  have hnamed := hclaim tr w hrun a ha hf _ (List.prefix_refl _) Stage.listed
    (by decide +kernel) (List.eq_nil_of_length_eq_zero (by decide +kernel)) _
    (Stage.forall₂_announced _)
  obtain ⟨row, hrow, -⟩ := hnamed.led (3, .of 100) (by rw [hbids]; rfl)
  have hwins : row ∈ [row] := List.mem_singleton_self row
  rw [← hrow, List.mem_filter] at hwins
  have hflag : row.isWinning ∈ [false] := hlost ▸ List.mem_map_of_mem hwins.1
  rw [List.mem_singleton] at hflag
  exact absurd (hwins.2.symm.trans hflag) (by decide)

end UrithiBidz
