import UrithiBidz.Indexer.Writes
import UrithiBidz.Ledger.Replay

/-!
# The mirror of the contract

The tables of the indexer are meant to mirror the contract: a row for every auction, with its
status, its highest bid and its deadline. They would have to be built from the events, and
events are published under names of at most nine characters, `auc_new` and `bid_new` and so
on, while the handlers wait for `auction_created` and `bid_placed`. Two names are the same on
both sides, and neither of their handlers writes to the table of auctions.

So the table stays as it was set up, whatever happens on the chain: after all events of a run
it has no row for any auction (`UrithiBidz.Run.auctions_unwritten`), and no auction is ever
mirrored.
-/

namespace UrithiBidz

variable {Address : Type}

/-! ### What the contract publishes -/

/-- The names of the events. -/
def eventNames : List String :=
  ["auc_new", "bid_new", "auc_ext", "bid_out", "bid_ref", "cmt_stor", "bid_rev", "auc_end",
    "auc_set", "att_rec", "auc_cxl", "nft_appr", "urv_ref"]

/-- The event has one of the names. -/
def Event.Named (e : Event Address) : Prop :=
  ∃ name ∈ eventNames, ∃ topics, e.topics = .symbol name :: topics

theorem Event.Other.named {e : Event Address} (h : e.Other) : e.Named := by
  obtain ⟨name, hname, topics, htopics⟩ := h
  have hsub : otherNames ⊆ eventNames := by decide
  exact ⟨name, hsub hname, topics, htopics⟩

theorem named_emitBidPlaced (record : BidRecord Address) : (emitBidPlaced record).Named :=
  ⟨"bid_new", by decide, _, rfl⟩

variable [DecidableEq Address]

/-- **Every event of the contract has one of the names.** -/
theorem invoke_named {env : Env Address} {s : Storage Address} {c : Call Address}
    {o : Outcome Address} (h : invoke env s c = .ok o) : ∀ e ∈ o.events, e.Named := by
  have hpublishes := publishes_of_invoke h
  generalize o.events = events at hpublishes ⊢
  cases hpublishes with
  | silent _ hother => exact fun e he => (hother e he).named
  | placed hother =>
    intro e he
    rcases List.mem_append.mp he with he | he
    · exact (hother e he).named
    · rw [List.mem_singleton.mp he]
      exact named_emitBidPlaced _
  | bought hother =>
    exact List.forall_mem_cons.mpr ⟨named_emitBidPlaced _, fun e he => (hother e he).named⟩

/-! ### What the handlers do with it -/

/-- A query that leaves the table of auctions alone. -/
def DbCall.SparesAuctions (call : DbCall) : Prop :=
  ∀ db db' : Database, db.apply call = some db' → db'.auctions = db.auctions

theorem DbCall.sparesAuctions_insertEvent (event : EventRecord) :
    (DbCall.insertEvent event).SparesAuctions := by
  intro db db' h
  rw [Database.apply] at h
  split at h
  · split at h <;> rw [← Option.some.inj h]
  · cases h

theorem DbCall.sparesAuctions_markBidRefunded (auctionId : ℤ) (bidder : Native) :
    (DbCall.markBidRefunded auctionId bidder).SparesAuctions := by
  intro db db' h
  rw [← Option.some.inj h]
  rfl

theorem Database.auctions_run {calls : List DbCall} (h : ∀ call ∈ calls, call.SparesAuctions)
    (db : Database) : (db.run calls).1.auctions = db.auctions :=
  run_induct (P := fun db' => db'.auctions = db.auctions) rfl fun call hmem db₁ db₂ hsame hcall =>
    (h call hmem db₁ db₂ hcall).trans hsame

/-- Of the names of the contract two have handlers, and what these write spares the table. -/
theorem Writes.sparesAuctions {auctionId : ℤ} {data payload : Native} {name : String}
    {writes : List DbCall} (h : Writes auctionId data name writes payload)
    (hname : name ∈ eventNames) : ∀ call ∈ writes, call.SparesAuctions := by
  cases h with
  | outbid hbidder =>
    intro call hcall
    rw [List.mem_singleton.mp hcall]
    exact DbCall.sparesAuctions_markBidRefunded _ _
  | extended => exact fun call hcall => absurd hcall List.not_mem_nil
  | _ => exact absurd hname (by decide)

omit [DecidableEq Address] in
theorem Event.Named.subject {text : Address → String} {ledger : ℕ} {txHash : Option String}
    {e : Event Address} (he : e.Named) {name : String} {auctionId : ℤ}
    (h : (deliver text ledger txHash e).subject = some (name, auctionId)) : name ∈ eventNames := by
  obtain ⟨name', hname, topics, htopics⟩ := he
  simp only [SorobanEvent.subject, deliver, htopics, List.map_cons] at h
  split at h
  · next eventType second rest hcons =>
    split at h
    · obtain ⟨id, -, hsubject⟩ := Option.map_eq_some_iff.mp h
      obtain ⟨rfl, -⟩ := Prod.mk.inj hsubject
      rw [← (List.cons.inj hcons).1]
      exact hname
    · cases h
  · cases h

omit [DecidableEq Address] in
/-- An event with one of the names leads to no query that writes to the table. -/
theorem sparesAuctions_of_processEvent {text : Address → String} {ledger : ℕ}
    {txHash : Option String} {e : Event Address} (he : e.Named) {now : ℤ} {calls : List DbCall}
    (h : processEvent now (deliver text ledger txHash e) = .ok calls) :
    ∀ call ∈ calls, call.SparesAuctions := by
  rcases hsubject : (deliver text ledger txHash e).subject with _ | ⟨name, auctionId⟩
  · rw [processEvent_of_subject_eq_none hsubject] at h
    rw [← Except.ok.inj h]
    exact fun call hcall => absurd hcall List.not_mem_nil
  · obtain ⟨writes, payload, hwrites, hprocess⟩ := writes_of_processEvent hsubject h now
    rw [Except.ok.inj (h.symm.trans hprocess)]
    intro call hcall
    rcases List.mem_append.mp hcall with hcall | hcall
    · exact hwrites.sparesAuctions (he.subject hsubject) call hcall
    · rw [List.mem_singleton.mp hcall]
      exact DbCall.sparesAuctions_insertEvent _

omit [DecidableEq Address] in
/-- **No event of the contract writes to the table of auctions.** -/
theorem Database.auctions_handle {text : Address → String} {ledger : ℕ} {txHash : Option String}
    {e : Event Address} (he : e.Named) (db : Database) (now : ℤ) :
    (db.handle now (deliver text ledger txHash e)).1.auctions = db.auctions := by
  rw [handle]
  split
  · next calls hcalls => exact auctions_run (sparesAuctions_of_processEvent he hcalls) db
  · rfl

/-! ### The mirror -/

/-- How an event reaches the indexer: from which ledger and transaction, and when. -/
structure Delivery where
  ledger : ℕ
  txHash : Option String
  now : ℤ

/-- The tables after the events of a run, as they were delivered: those with three topics are
fetched, and handled in order. -/
def indexed (text : Address → String) (mail : List (Event Address × Delivery)) : Database :=
  (mail.filter fun m => (deliver text m.2.ledger m.2.txHash m.1).fetched).foldl
    (fun db m => (db.handle m.2.now (deliver text m.2.ledger m.2.txHash m.1)).1) Database.blank

/-- The names of a status in the table. -/
def statusNames : AuctionStatus → List String
  | .created => ["created"]
  | .active => ["active"]
  | .ended => ["closed", "ended"]
  | .settled => ["settled"]
  | .cancelled => ["cancelled"]

/-- **The table mirrors an auction.** -/
def Database.Mirrors (db : Database) (text : Address → String) (id : U64)
    (a : Auction Address) : Prop :=
  ∃ row, db.auctions (jsNumber id.val) = some row ∧ row.status ∈ statusNames a.status ∧
    (match a.highestBidder with
      | some x => row.highestBidder.text = text x
      | none => row.highestBidder.isNullish = true) ∧
    row.highestBid = toString a.highestBid.val ∧ row.endTime.text = toString a.endTime.val

variable {H : Host Address} {tr : List (Invocation Address)} {w : World H}

theorem Run.named (h : Run H tr w) : ∀ e ∈ tr.flatMap (·.outcome.events), e.Named := by
  intro e he
  obtain ⟨i, hi, hevent⟩ := List.mem_flatMap.mp he
  obtain ⟨past, v, v', -, hs, -⟩ := h.of_mem hi
  exact invoke_named hs.returns.2.2.1 e hevent

/-- **No auction is ever mirrored.** In every run, however its events were delivered, the
table of auctions is empty once they have all been handled. -/
theorem Run.auctions_unwritten (h : Run H tr w) (text : Address → String)
    (mail : List (Event Address × Delivery))
    (hmail : mail.map Prod.fst = tr.flatMap (·.outcome.events)) :
    (∀ n, (indexed text mail).auctions n = none) ∧
      ∀ id a, w.storage.auctions id = some a → ¬(indexed text mail).Mirrors text id a := by
  have hempty : (indexed text mail).auctions = fun _ => none := by
    -- the table is the same after every event
    refine List.foldlRecOn _ _ (motive := fun db : Database => db.auctions = fun _ => none) rfl ?_
    intro db hdb m hm
    have hnamed : m.1.Named := by
      refine h.named m.1 ?_
      rw [← hmail]
      exact List.mem_map.mpr ⟨m, (List.mem_filter.mp hm).1, rfl⟩
    rw [Database.auctions_handle hnamed]
    exact hdb
  refine ⟨fun n => by rw [hempty], ?_⟩
  rintro id a - ⟨row, hrow, -⟩
  rw [hempty] at hrow
  cases hrow

/-- An English auction is opened, and account 3 bids a hundred. -/
def Stage.firstBid : List (Tx ℕ × Call ℕ) :=
  Stage.opening .english Stage.painting ++
    [(Stage.signed 2 1, .activateAuction 0), (Stage.signed 3 (.of 2), .placeBid 0 3 (.of 100))]

/-- Events, each delivered from a ledger of its own. -/
def Stage.mail (events : List (Event ℕ)) : List (Event ℕ × Delivery) :=
  events.zipIdx.map fun e => (e.1, ⟨100 + e.2, none, 0⟩)

theorem Stage.map_fst_mail (events : List (Event ℕ)) :
    (Stage.mail events).map Prod.fst = events := by
  rw [mail, List.map_map]
  exact List.zipIdx_map_fst 0 events

/-- The theorem at a first bid. -/
theorem auctions_unwritten_firstBid : ∃ (tr : List (Invocation ℕ)) (w : World Stage.host)
    (mail : List (Event ℕ × Delivery)) (a : Auction ℕ), Run Stage.host tr w ∧
      mail.map Prod.fst = tr.flatMap (·.outcome.events) ∧ mail.length = 3 ∧
      w.storage.auctions 0 = some a ∧ ¬(indexed toString mail).Mirrors toString 0 a := by
  have hreplay : (replay Stage.start Stage.firstBid).map (fun r =>
      ((Stage.mail (r.1.flatMap (·.outcome.events))).length, (r.2.storage.auctions 0).isSome)) =
      some (3, true) := by decide +kernel
  obtain ⟨tr, w, hrun, hv⟩ := exists_run_of_replay Stage.world_refl rfl hreplay
  obtain ⟨hlength, hsome⟩ := Prod.mk.inj hv
  obtain ⟨a, ha⟩ := Option.isSome_iff_exists.mp hsome
  have hmail := Stage.map_fst_mail (tr.flatMap (·.outcome.events))
  exact ⟨tr, w, _, a, hrun, hmail, hlength, ha,
    (hrun.auctions_unwritten toString _ hmail).2 0 a ha⟩

/-- **The auction of a first bid is not mirrored.** -/
theorem exists_unmirrored : ¬∀ (tr : List (Invocation ℕ)) (w : World Stage.host)
    (mail : List (Event ℕ × Delivery)), Run Stage.host tr w →
      mail.map Prod.fst = tr.flatMap (·.outcome.events) →
        ∀ id a, w.storage.auctions id = some a → (indexed toString mail).Mirrors toString id a := by
  intro hclaim
  have hreplay : (replay Stage.start Stage.firstBid).map (fun r =>
      ((r.2.storage.auctions 0).isSome,
        ((indexed toString (Stage.mail (r.1.flatMap (·.outcome.events)))).auctions 0).isNone)) =
      some (true, true) := by decide +kernel
  obtain ⟨tr, w, hrun, hv⟩ := exists_run_of_replay Stage.world_refl rfl hreplay
  obtain ⟨hsome, hnone⟩ := Prod.mk.inj hv
  obtain ⟨a, ha⟩ := Option.isSome_iff_exists.mp hsome
  obtain ⟨row, hrow, -⟩ := hclaim tr w _ hrun (Stage.map_fst_mail _) 0 a ha
  have hempty := Option.isNone_iff_eq_none.mp hnone
  exact absurd (hempty.symm.trans hrow) (by rintro ⟨⟩)

end UrithiBidz
