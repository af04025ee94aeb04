import UrithiBidz.Indexer.Writes
import UrithiBidz.Server.Listing

/-!
# What the lists of auctions show

Whoever reads the list of a seller or of a format page by page, while the indexer goes on writing,
misses no auction that was there at the start. The rows of these auctions change, but neither
column does, rows are not deleted, and new ones come first and only push the others back, so that
some are read twice (`UrithiBidz.Catalogue.walked`).

The list of a status is another matter. Five statuses are written to the table. The request for one
of them, `closed`, is refused, and the one that may be asked for in its place, `ended`, is never
written. And an auction is written as active with its first bid, so until then it is not in the
list of active auctions (`UrithiBidz.Catalogue.listedByStatus`).
-/

namespace UrithiBidz

variable {db db' : Database} {c c' c'' : Catalogue} {call : DbCall}

/-! ### How the rows of auctions change -/

/-- What of a row is fixed when it is written first. -/
structure AuctionRecord.Keeps (row row' : AuctionRecord) : Prop where
  id : row'.id = row.id
  seller : row'.seller = row.seller
  format : row'.format = row.format

theorem AuctionRecord.Keeps.refl (row : AuctionRecord) : row.Keeps row := ⟨rfl, rfl, rfl⟩

namespace Database

/-- The row of an auction is changed in a way that keeps what is fixed, or left. -/
def Changes (db db' : Database) (id : ℤ) : Prop :=
  ∃ f : AuctionRecord → AuctionRecord, (∀ row : AuctionRecord, row.Keeps (f row)) ∧
    db'.auctions id = (db.auctions id).map f

theorem Changes.of_eq {id : ℤ} (h : db'.auctions id = db.auctions id) : db.Changes db' id :=
  ⟨fun row => row, .refl, by rw [h, Option.map_id']⟩

theorem changes_updateAuction (db : Database) (auctionId : ℤ) {f : AuctionRecord → AuctionRecord}
    (hf : ∀ row : AuctionRecord, row.Keeps (f row)) (id : ℤ) :
    db.Changes (db.updateAuction auctionId f) id := by
  by_cases hid : id = auctionId
  · rw [hid]
    exact ⟨f, hf, Function.update_self _ _ _⟩
  · exact .of_eq (Function.update_of_ne hid _ _)

/-- **What a query does to the row of an auction**: it creates or changes it. -/
theorem auctions_apply (h : db.apply call = some db') (id : ℤ) :
    (id ∈ db.created call ∧ db.auctions id = none ∧
      ∃ auction, auction.id = id ∧ db'.auctions id = some auction) ∨
        (id ∉ db.created call ∧ db.Changes db' id) := by
  cases call with
  | upsertAuction auction =>
    rw [← Option.some.inj h]
    by_cases hid : id = auction.id
    · rw [hid]
      -- `ON CONFLICT` updates some columns of the row that is there
      rcases hrow : db.auctions auction.id with _ | row
      · exact Or.inl ⟨by simp [created, hrow], rfl, auction, rfl, by simp [upsertAuction, hrow]⟩
      · refine Or.inr ⟨by simp [created, hrow], fun (old : AuctionRecord) => { old with
          status := auction.status
          highestBidder := auction.highestBidder
          highestBid := auction.highestBid
          currentDutchPrice := auction.currentDutchPrice
          attested := auction.attested
          sellerProceeds := auction.sellerProceeds
          royaltyAmount := auction.royaltyAmount
          platformFeeAmount := auction.platformFeeAmount }, fun _ => ⟨rfl, rfl, rfl⟩, ?_⟩
        simp [upsertAuction, hrow]
    · refine Or.inr ⟨?_, .of_eq (Function.update_of_ne hid _ _)⟩
      rw [created]
      split
      · exact List.not_mem_nil
      · simpa using hid
  | updateAuctionOnBid auctionId highestBidder highestBid =>
    rw [← Option.some.inj h]
    obtain ⟨f, hf, hrow⟩ := changes_updateAuction
      (db.updateBids auctionId (·.isWinning) fun bid => { bid with isWinning := false }) auctionId
      (f := fun row => { row with
        highestBidder := highestBidder
        highestBid := highestBid
        status := "active" }) (fun _ => ⟨rfl, rfl, rfl⟩) id
    exact Or.inr ⟨List.not_mem_nil, f, hf, hrow⟩
  | updateAuctionOnClose auctionId status highestBidder highestBid =>
    rw [apply] at h
    split at h <;> rw [← Option.some.inj h] <;>
      refine Or.inr ⟨List.not_mem_nil, db.changes_updateAuction auctionId ?_ id⟩ <;>
        exact fun _ => ⟨rfl, rfl, rfl⟩
  | markBidRefunded auctionId bidder =>
    rw [← Option.some.inj h]
    exact Or.inr ⟨List.not_mem_nil, .of_eq rfl⟩
  | insertBid bid =>
    rw [apply] at h
    split at h
    · rw [← Option.some.inj h]
      exact Or.inr ⟨List.not_mem_nil, .of_eq rfl⟩
    · cases h
  | insertEvent event =>
    rw [apply] at h
    split at h
    · -- a second row for a ledger, type and auction is dropped, and no auction touched
      split at h <;> rw [← Option.some.inj h] <;> exact Or.inr ⟨List.not_mem_nil, .of_eq rfl⟩
    · cases h
  | _ =>
    rw [← Option.some.inj h]
    refine Or.inr ⟨List.not_mem_nil, db.changes_updateAuction _ ?_ id⟩
    exact fun _ => ⟨rfl, rfl, rfl⟩

end Database

/-! ### How the list grows -/

namespace Catalogue

/-- The order has the auctions of the table, each once, and rows know their ids. -/
structure Sound (c : Catalogue) : Prop where
  nodup : c.newest.Nodup
  mem_iff : ∀ id, id ∈ c.newest ↔ (c.db.auctions id).isSome
  id_eq : ∀ id row, c.db.auctions id = some row → row.id = id

theorem sound_blank : blank.Sound where
  nodup := List.nodup_nil
  mem_iff _ := iff_of_false List.not_mem_nil Bool.false_ne_true
  id_eq _ _ h := by cases h

/-- **A catalogue has grown**: auctions have come in front, and those that were there have kept
what is fixed. -/
structure Grows (c c' : Catalogue) : Prop where
  newest : ∃ fresh, c'.newest = fresh ++ c.newest
  kept : ∀ id row, c.db.auctions id = some row →
    ∃ row', c'.db.auctions id = some row' ∧ row.Keeps row'

theorem Grows.refl (c : Catalogue) : c.Grows c := ⟨⟨[], rfl⟩, fun _ row h => ⟨row, h, .refl row⟩⟩

theorem Grows.trans (h : c.Grows c') (h' : c'.Grows c'') : c.Grows c'' := by
  obtain ⟨fresh, hfresh⟩ := h.newest
  obtain ⟨fresh', hfresh'⟩ := h'.newest
  refine ⟨⟨fresh' ++ fresh, by rw [hfresh', hfresh, List.append_assoc]⟩, fun id row hrow => ?_⟩
  obtain ⟨row', hrow', hkeeps⟩ := h.kept id row hrow
  obtain ⟨row'', hrow'', hkeeps'⟩ := h'.kept id row' hrow'
  exact ⟨row'', hrow'', hkeeps'.id.trans hkeeps.id, hkeeps'.seller.trans hkeeps.seller,
    hkeeps'.format.trans hkeeps.format⟩

/-- A query keeps the order right, and lets the catalogue grow. -/
theorem Sound.apply (h : c.Sound) (happly : c.apply call = some c') : c'.Sound ∧ c.Grows c' := by
  obtain ⟨db, hdb, rfl⟩ := Option.map_eq_some_iff.mp happly
  have hrows := Database.auctions_apply hdb
  -- a row is created only where there was none, so the order of creation has no doubles
  have hfresh : ∀ id ∈ c.db.created call, id ∉ c.newest := by
    intro id hid hold
    rw [h.mem_iff] at hold
    rcases hrows id with ⟨-, hnone, -⟩ | ⟨hno, -⟩
    · rw [hnone] at hold
      cases hold
    · exact hno hid
  refine ⟨⟨?_, fun id => ?_, fun id row hrow => ?_⟩, ⟨⟨_, rfl⟩, fun id row hrow => ?_⟩⟩
  · refine List.nodup_append.mpr ⟨?_, h.nodup, fun id hid id' hid' heq => ?_⟩
    · unfold Database.created
      split
      · split <;> simp
      · exact List.nodup_nil
    · exact hfresh id hid (heq ▸ hid')
  · dsimp only
    rw [List.mem_append, h.mem_iff]
    rcases hrows id with ⟨hid, -, auction, -, hnew⟩ | ⟨hid, f, -, hsame⟩
    · exact iff_of_true (Or.inl hid) (by rw [hnew]; rfl)
    · rw [hsame, Option.isSome_map]
      exact or_iff_right hid
  · dsimp only at hrow
    rcases hrows id with ⟨-, -, auction, hid, hnew⟩ | ⟨-, f, hf, hsame⟩
    · rw [← Option.some.inj (hnew.symm.trans hrow)]
      exact hid
    · rw [hsame] at hrow
      obtain ⟨old, hold, rfl⟩ := Option.map_eq_some_iff.mp hrow
      rw [(hf old).id, h.id_eq id old hold]
  · dsimp only
    rcases hrows id with ⟨-, hnone, -⟩ | ⟨-, f, hf, hsame⟩
    · rw [hnone] at hrow
      cases hrow
    · exact ⟨f row, by rw [hsame, hrow]; rfl, hf row⟩

theorem Sound.run (h : c.Sound) (calls : List DbCall) :
    (c.run calls).Sound ∧ c.Grows (c.run calls) := by
  induction calls generalizing c with
  | nil => exact ⟨h, .refl c⟩
  | cons call calls ih =>
    rw [Catalogue.run]
    rcases happly : c.apply call with _ | c'
    · exact ⟨h, .refl c⟩
    · obtain ⟨hsound, hgrows⟩ := h.apply happly
      obtain ⟨hsound', hgrows'⟩ := ih hsound
      exact ⟨hsound', hgrows.trans hgrows'⟩

/-- **An event lets the catalogue grow.** -/
theorem Sound.handle (h : c.Sound) (now : ℤ) (event : SorobanEvent) :
    (c.handle now event).Sound ∧ c.Grows (c.handle now event) := by
  rw [Catalogue.handle]
  rcases processEvent now event with error | calls
  · exact ⟨h, .refl c⟩
  · exact h.run calls

/-- The tables after some events, from the start. -/
def after (past : List (ℤ × SorobanEvent)) : Catalogue :=
  past.foldl (fun c e => c.handle e.1 e.2) blank

theorem sound_after (past : List (ℤ × SorobanEvent)) : (after past).Sound := by
  induction past using List.reverseRecOn with
  | nil => exact sound_blank
  | append_singleton past e ih =>
    rw [after, List.foldl_append]
    exact (ih.handle e.1 e.2).1

/-! ### Pages of a list -/

/-- The auctions that a list has, the latest first. -/
def listed (c : Catalogue) (filters : List (String × Option String)) : List ℤ :=
  c.newest.filter fun id => (c.db.auctions id).any (Meets AuctionRecord.column filters)

theorem Sound.mem_listed_iff (h : c.Sound) {filters : List (String × Option String)} {id : ℤ} :
    id ∈ c.listed filters ↔
      ∃ row ∈ c.rows, row.id = id ∧ Meets AuctionRecord.column filters row = true := by
  rw [listed, List.mem_filter, h.mem_iff]
  constructor
  · rintro ⟨-, hany⟩
    rcases hrow : c.db.auctions id with _ | row
    · rw [hrow] at hany
      cases hany
    · rw [hrow] at hany
      exact ⟨row, List.mem_filterMap.mpr ⟨id, (h.mem_iff id).mpr (by rw [hrow]; rfl), hrow⟩,
        h.id_eq id row hrow, hany⟩
  · rintro ⟨row, hrow, rfl, hmeets⟩
    obtain ⟨id, -, hid⟩ := List.mem_filterMap.mp hrow
    rw [h.id_eq id row hid, hid]
    exact ⟨rfl, hmeets⟩

/-- **A page has the auctions at its places in the list.** -/
theorem Sound.map_id_list (h : c.Sound) (params : AuctionParams) :
    (c.list params).map (·.id) = ((c.listed params.filters).drop (numberOr params.offset 0)).take
      (numberOr params.limit 50) := by
  rw [list, getAuctions, rows_select, List.map_take, List.map_drop]
  congr 2
  rw [rows, List.filter_filterMap, List.map_filterMap, listed, ← List.filterMap_eq_filter]
  refine List.filterMap_congr fun id hid => ?_
  obtain ⟨row, hrow⟩ := Option.isSome_iff_exists.mp ((h.mem_iff id).mp hid)
  by_cases hmeets : Meets AuctionRecord.column params.filters row = true
  · simp [Option.guard, hrow, hmeets, h.id_eq id row hrow]
  · simp [Option.guard, hrow, hmeets]

/-- A list that does not ask for a status has a row as long as it is there. -/
theorem meets_of_keeps {params : AuctionParams} (hstatus : params.status = none)
    {row row' : AuctionRecord} (h : row.Keeps row') :
    Meets AuctionRecord.column params.filters row' =
      Meets AuctionRecord.column params.filters row := by
  simp [Meets, AuctionParams.filters, hstatus, Database.nonEmpty, AuctionRecord.column, h.seller,
    h.format]

/-- **Such a list grows in front.** -/
theorem Grows.listed (h : c.Grows c') (hc : c.Sound) (hc' : c'.Sound) {params : AuctionParams}
    (hstatus : params.status = none) :
    ∃ fresh, c'.listed params.filters = fresh ++ c.listed params.filters ∧
      ∀ id ∈ fresh, id ∉ c.newest := by
  obtain ⟨fresh, hfresh⟩ := h.newest
  have hnodup := hc'.nodup
  rw [hfresh] at hnodup
  have hold : c.newest.filter (fun id =>
      (c'.db.auctions id).any (Meets AuctionRecord.column params.filters)) =
        c.listed params.filters := by
    refine List.filter_congr fun id hid => ?_
    obtain ⟨row, hrow⟩ := Option.isSome_iff_exists.mp ((hc.mem_iff id).mp hid)
    obtain ⟨row', hrow', hkeeps⟩ := h.kept id row hrow
    rw [hrow, hrow', Option.any_some, Option.any_some, meets_of_keeps hstatus hkeeps]
  refine ⟨_, by rw [Catalogue.listed, hfresh, List.filter_append, hold], fun id hid hnewest => ?_⟩
  exact (List.nodup_append.mp hnodup).2.2 id (List.mem_filter.mp hid).1 id hnewest rfl

end Catalogue

/-! ### Reading page by page -/

/-- Someone reads a list: the catalogue, the place of the next page, the auctions read so far, and
whether a page has come that was not full. -/
structure Walk where
  catalogue : Catalogue
  offset : ℕ
  got : List ℤ
  ended : Bool

/-- The indexer processes an event, or the next page is read. -/
inductive WalkEvent
  | handle (now : ℤ) (event : SorobanEvent)
  | page

/-- What happens then, with pages of some length from the list of a format and a seller. -/
def Walk.next (format seller : Option String) (limit : ℕ) (w : Walk) : WalkEvent → Walk
  | .handle now event => { w with catalogue := w.catalogue.handle now event }
  | .page =>
    let page := w.catalogue.list ⟨none, format, seller, some limit, some w.offset⟩
    ⟨w.catalogue, w.offset + limit, w.got ++ page.map (·.id), w.ended || page.length < limit⟩

/-- Reading from the start of the list. -/
def Catalogue.walk (c : Catalogue) (format seller : Option String) (limit : ℕ)
    (events : List WalkEvent) : Walk :=
  events.foldl (Walk.next format seller limit) ⟨c, 0, [], false⟩

/-- The list of a format and a seller. -/
def listFilters (format seller : Option String) : List (String × Option String) :=
  [("status", none), ("format", format), ("seller", seller)]

/-- What has been read of a list, at some point, of what it had first. -/
structure Walk.Reads (first : List ℤ) (filters : List (String × Option String)) (w : Walk) :
    Prop where
  sound : w.catalogue.Sound
  first_subset : first ⊆ w.catalogue.listed filters
  caught : Paging.Caught first (w.catalogue.listed filters) w.offset w.got
  got_subset : w.got ⊆ w.catalogue.listed filters
  ended : w.ended = true → first ⊆ w.got

/-- **What one event does to the reading.** -/
theorem Walk.Reads.next {first : List ℤ} {w : Walk} {format seller : Option String} {limit : ℕ}
    (hlimit : limit ≠ 0) (h : w.Reads first (listFilters format seller)) (event : WalkEvent) :
    (w.next format seller limit event).Reads first (listFilters format seller) := by
  cases event with
  | handle now event =>
    -- what is stored in between comes in front, and pushes back what was not read yet
    obtain ⟨hsound, hgrows⟩ := h.sound.handle now event
    obtain ⟨fresh, hlisted, hfresh⟩ : ∃ fresh, (w.catalogue.handle now event).listed
        (listFilters format seller) = fresh ++ w.catalogue.listed (listFilters format seller) ∧
          ∀ id ∈ fresh, id ∉ w.catalogue.newest :=
      @Catalogue.Grows.listed _ _ hgrows h.sound hsound ⟨none, format, seller, none, none⟩ rfl
    have hcaught : Paging.Caught first
        (fresh ++ w.catalogue.listed (listFilters format seller)) w.offset w.got :=
      h.caught.grow fun id hid hfirst =>
        hfresh id hid (List.mem_filter.mp (h.first_subset hfirst)).1
    have hgrown : w.catalogue.listed (listFilters format seller) ⊆
        (w.catalogue.handle now event).listed (listFilters format seller) := by
      intro id hid
      exact hlisted ▸ List.mem_append_right fresh hid
    exact ⟨hsound, List.Subset.trans h.first_subset hgrown, hlisted ▸ hcaught,
      List.Subset.trans h.got_subset hgrown, h.ended⟩
  | page =>
    have hpage := h.sound.map_id_list ⟨none, format, seller, some limit, some w.offset⟩
    rw [numberOr_some hlimit, numberOr_some_zero] at hpage
    change _ = ((w.catalogue.listed (listFilters format seller)).drop w.offset).take limit
      at hpage
    refine ⟨h.sound, h.first_subset, ?_, ?_, fun hended => ?_⟩
    · simp only [Walk.next, hpage]
      exact h.caught.page limit
    · simp only [Walk.next, hpage]
      refine List.append_subset.mpr ⟨h.got_subset, fun id hid => ?_⟩
      exact List.mem_of_mem_drop (List.mem_of_mem_take hid)
    · simp only [Walk.next, Bool.or_eq_true, decide_eq_true_eq] at hended
      simp only [Walk.next, hpage]
      rcases hended with hended | hshort
      · -- it had ended before, or this page is short
        exact List.subset_append_of_subset_left _ (h.ended hended)
      · rw [← List.length_map (·.id), hpage] at hshort
        exact h.caught.complete hshort h.first_subset

/-- **Nothing is missed and nothing is made up**: what has been read of a list, when it had some
rows at the start and has some rows now. -/
structure Walked (filters : List (String × Option String)) (first : List AuctionRecord)
    (w : Walk) : Prop where
  /-- When a page has come that was not full, every auction has been read that was in the list at
  the start. -/
  complete : w.ended = true → ∀ row ∈ first, Meets AuctionRecord.column filters row = true →
    row.id ∈ w.got
  /-- What has been read is in the list. -/
  listed : ∀ id ∈ w.got, ∃ row ∈ w.catalogue.rows, row.id = id ∧
    Meets AuctionRecord.column filters row = true

/-- **Whoever reads the list of a format and a seller page by page misses no auction**, whatever
the indexer writes meanwhile. -/
theorem Catalogue.walked (past : List (ℤ × SorobanEvent)) (format seller : Option String)
    {limit : ℕ} (hlimit : limit ≠ 0) (events : List WalkEvent) :
    Walked (listFilters format seller) (after past).rows
      ((after past).walk format seller limit events) := by
  have hreads : ((after past).walk format seller limit events).Reads
      ((after past).listed (listFilters format seller)) (listFilters format seller) := by
    unfold walk
    induction events using List.reverseRecOn with
    | nil =>
      exact ⟨sound_after past, List.Subset.refl _, .zero _ _ _, List.nil_subset _,
        fun hended => absurd hended Bool.false_ne_true⟩
    | append_singleton events event ih =>
      rw [List.foldl_append]
      exact ih.next hlimit event
  refine ⟨fun hended row hrow hmeets => ?_, fun id hid => ?_⟩
  · exact hreads.ended hended ((sound_after past).mem_listed_iff.mpr ⟨row, hrow, rfl, hmeets⟩)
  · exact hreads.sound.mem_listed_iff.mp (hreads.got_subset hid)

namespace Stage

/-- An auction is created, by one seller. -/
def offered (id : ℤ) : SorobanEvent :=
  ⟨500, [.string "auction_created", .bigint id, .string "GA"],
    .object [("seller", .string "GA"), ("format", .string "dutch")], none⟩

/-- Reading in pages of two, while auctions are created. -/
def browsing : List WalkEvent :=
  [.page, .handle 0 (offered 4), .page, .handle 0 (offered 5), .page, .page]

end Stage

/-- The theorem at three auctions and two that come later: two are read twice. -/
theorem walked_browsing :
    ((Catalogue.after ([1, 2, 3].map fun id => (0, Stage.offered id))).walk none (some "GA") 2
      Stage.browsing).got = [3, 2, 2, 1, 1] ∧
        Walked (listFilters none (some "GA"))
          (Catalogue.after ([1, 2, 3].map fun id => (0, Stage.offered id))).rows
          ((Catalogue.after ([1, 2, 3].map fun id => (0, Stage.offered id))).walk none (some "GA") 2
            Stage.browsing) :=
  ⟨by decide +kernel, Catalogue.walked _ _ _ (by decide) _⟩

/-! ### The list of a status -/

/-- The statuses that are written to the table. -/
def writtenStatuses : List String := ["created", "active", "closed", "settled", "cancelled"]

/-- **What the statuses of rows are**: one of five, and active if there is a bid. -/
structure Database.Statused (db : Database) : Prop where
  known : ∀ id row, db.auctions id = some row → row.status ∈ writtenStatuses
  active : ∀ id row, db.auctions id = some row → row.status = "active" →
    ∃ bid ∈ db.bids, bid.auctionId = id

/-- A query writes a status that is known, and none that is active. -/
def DbCall.Plain : DbCall → Prop
  | .upsertAuction auction => auction.status = "created"
  | .updateAuctionOnBid .. => False
  | .updateAuctionOnClose _ status _ _ => status = "closed"
  | _ => True

namespace Database

theorem statused_blank : blank.Statused where
  known _ _ h := by cases h
  active _ _ h := by cases h

/-- A row is written, with a status that it may have. -/
theorem Statused.update (h : db.Statused) {auctionId : ℤ} {f : AuctionRecord → AuctionRecord}
    (hf : ∀ row, (f row).status = row.status ∨ ((f row).status ∈ writtenStatuses ∧
      ((f row).status = "active" → ∃ bid ∈ db.bids, bid.auctionId = auctionId))) :
    (db.updateAuction auctionId f).Statused := by
  -- a row of the tables is an old one, or the one that was rewritten
  have hrow : ∀ id row, (db.updateAuction auctionId f).auctions id = some row →
      db.auctions id = some row ∨
        (id = auctionId ∧ ∃ old, db.auctions id = some old ∧ f old = row) := by
    intro id row hid
    by_cases heq : id = auctionId
    · subst heq
      rw [updateAuction] at hid
      dsimp only at hid
      rw [Function.update_self] at hid
      exact Or.inr ⟨rfl, Option.map_eq_some_iff.mp hid⟩
    · exact Or.inl ((Function.update_of_ne heq _ _).symm.trans hid)
  constructor
  · intro id row hid
    rcases hrow id row hid with hid | ⟨-, old, hold, rfl⟩
    · exact h.known id row hid
    · rcases hf old with hsame | ⟨hknown, -⟩
      · exact hsame ▸ h.known id old hold
      · exact hknown
  · intro id row hid hactive
    rcases hrow id row hid with hid | ⟨rfl, old, hold, rfl⟩
    · exact h.active id row hid hactive
    · rcases hf old with hsame | ⟨-, hbid⟩
      · exact h.active id old hold (hsame.symm.trans hactive)
      · exact hbid hactive

theorem Statused.update_to (h : db.Statused) {auctionId : ℤ} {status : String}
    (hknown : status ∈ writtenStatuses) (hother : status ≠ "active")
    {f : AuctionRecord → AuctionRecord} (hf : ∀ row, (f row).status = status) :
    (db.updateAuction auctionId f).Statused :=
  h.update fun row => Or.inr ⟨hf row ▸ hknown, fun hactive => absurd (hf row ▸ hactive) hother⟩

theorem Statused.of_auctions (h : db.Statused) (hauctions : db'.auctions = db.auctions)
    (hbids : ∀ bid ∈ db.bids, ∃ bid' ∈ db'.bids, bid'.auctionId = bid.auctionId) :
    db'.Statused := by
  refine ⟨fun id row hid => h.known id row (hauctions ▸ hid), fun id row hid hactive => ?_⟩
  obtain ⟨bid, hbid, rfl⟩ := h.active id row (hauctions ▸ hid) hactive
  exact hbids bid hbid

theorem bids_updateBids (db : Database) (auctionId : ℤ) (p : BidRow → Bool)
    {f : BidRow → BidRow} (hf : ∀ bid, (f bid).auctionId = bid.auctionId) :
    ∀ bid ∈ db.bids, ∃ bid' ∈ (db.updateBids auctionId p f).bids,
      bid'.auctionId = bid.auctionId := by
  intro bid hbid
  refine ⟨_, List.mem_map_of_mem hbid, ?_⟩
  split
  · exact hf bid
  · rfl

/-- **A plain query keeps the statuses as they should be.** -/
theorem Statused.apply (h : db.Statused) (hplain : call.Plain) (happly : db.apply call = some db') :
    db'.Statused := by
  cases call with
  | upsertAuction auction =>
    rw [← Option.some.inj happly]
    have hcreated : auction.status = "created" := hplain
    have hrow : ∀ id row, (db.upsertAuction auction).auctions id = some row →
        db.auctions id = some row ∨ row.status = "created" := by
      intro id row hid
      by_cases heq : id = auction.id
      · subst heq
        rw [upsertAuction] at hid
        dsimp only at hid
        rw [Function.update_self] at hid
        rw [← Option.some.inj hid]
        right
        split <;> exact hcreated
      · exact Or.inl ((Function.update_of_ne heq _ _).symm.trans hid)
    constructor
    · intro id row hid
      rcases hrow id row hid with hid | hstatus
      · exact h.known id row hid
      · rw [hstatus]
        decide
    · intro id row hid hactive
      rcases hrow id row hid with hid | hstatus
      · exact h.active id row hid hactive
      · exact absurd (hstatus.symm.trans hactive) (by decide)
  -- this one follows the insertion of its bid, and is not plain
  | updateAuctionOnBid auctionId highestBidder highestBid => exact absurd hplain id
  | updateAuctionOnClose auctionId status highestBidder highestBid =>
    have hclosed : status = "closed" := hplain
    rw [Database.apply] at happly
    split at happly <;> rw [← Option.some.inj happly, hclosed] <;>
      exact h.update_to (by decide) (by decide) fun _ => rfl
  | updateAuctionOnSettle auctionId sellerProceeds royaltyAmount platformFeeAmount =>
    rw [← Option.some.inj happly]
    exact h.update_to (by decide) (by decide) fun _ => rfl
  | updateAuctionOnCancel auctionId =>
    rw [← Option.some.inj happly]
    exact h.update_to (by decide) (by decide) fun _ => rfl
  | updateAuctionOnAttestation auctionId attestationHash =>
    rw [← Option.some.inj happly]
    exact h.update fun _ => Or.inl rfl
  | markBidRefunded auctionId bidder =>
    rw [← Option.some.inj happly]
    exact h.of_auctions rfl (db.bids_updateBids auctionId _ fun _ => rfl)
  | insertBid bid =>
    rw [Database.apply] at happly
    split at happly
    · rw [← Option.some.inj happly]
      exact h.of_auctions rfl fun b hb => ⟨b, List.mem_append_left _ hb, rfl⟩
    · cases happly
  | insertEvent event =>
    rw [Database.apply] at happly
    split at happly
    · split at happly <;> rw [← Option.some.inj happly] <;>
        exact h.of_auctions rfl fun b hb => ⟨b, hb, rfl⟩
    · cases happly

theorem Statused.run (h : db.Statused) {calls : List DbCall} (hplain : ∀ call ∈ calls, call.Plain) :
    (db.run calls).1.Statused :=
  run_induct h fun call hcall _ _ hdb happly => hdb.apply (hplain call hcall) happly

/-- A bid that is inserted makes its auction active. -/
theorem Statused.run_placed (h : db.Statused) (bid : BidRow) (highestBidder : Native)
    (highestBid : String) {calls : List DbCall} (hplain : ∀ call ∈ calls, call.Plain) :
    (db.run (.insertBid bid :: .updateAuctionOnBid bid.auctionId highestBidder highestBid ::
      calls)).1.Statused := by
  rw [Database.run]
  split
  · next db₁ hinsert =>
    have hplace : (DbCall.insertBid bid).Plain := trivial
    have hdb₁ : db₁.Statused := h.apply hplace hinsert
    have hbid : bid ∈ db₁.bids := by
      rw [Database.apply] at hinsert
      split at hinsert
      · rw [← Option.some.inj hinsert]
        exact List.mem_append_right _ (List.mem_singleton_self bid)
      · cases hinsert
    rw [Database.run]
    dsimp only [Database.apply]
    refine Statused.run ?_ hplain
    have hbids := db₁.bids_updateBids bid.auctionId (·.isWinning)
      (f := fun bid => { bid with isWinning := false }) fun _ => rfl
    have hlost : (db₁.updateBids bid.auctionId (·.isWinning) fun bid =>
        { bid with isWinning := false }).Statused := hdb₁.of_auctions rfl hbids
    refine hlost.update fun _ => Or.inr ⟨?_, fun _ => hbids bid hbid⟩
    change "active" ∈ writtenStatuses
    decide
  · exact h

/-- **Every event keeps the statuses as they should be.** -/
theorem Statused.handle (h : db.Statused) (now : ℤ) (event : SorobanEvent) :
    (db.handle now event).1.Statused := by
  rw [Database.handle]
  split
  · next calls hcalls =>
    rcases hsubject : event.subject with _ | ⟨name, auctionId⟩
    · rw [processEvent_of_subject_eq_none hsubject] at hcalls
      rw [← Except.ok.inj hcalls]
      exact h
    · obtain ⟨writes, payload, hwrites, hprocess⟩ := writes_of_processEvent hsubject hcalls now
      rw [Except.ok.inj (hcalls.symm.trans hprocess)]
      have hevent : ∀ call ∈ [DbCall.insertEvent ⟨storedAs name, auctionId, payload, event.ledger,
          event.txHash⟩], call.Plain := by
        intro call hcall
        rw [List.mem_singleton.mp hcall]
        trivial
      cases hwrites with
      | created hid hprice hrecord =>
        exact h.run (List.forall_mem_cons.mpr ⟨hrecord.status, hevent⟩)
      | @placed bid hid hbidder hamount hwinning =>
        rw [← hid]
        -- the bid is inserted before the auction becomes active
        exact h.run_placed bid bid.bidder bid.amount (hid ▸ hevent)
      | refunded => exact h.run (List.forall_mem_cons.mpr ⟨trivial, hevent⟩)
      | outbid => exact h.run (List.forall_mem_cons.mpr ⟨trivial, hevent⟩)
      | closed => exact h.run (List.forall_mem_cons.mpr ⟨rfl, hevent⟩)
      | settled => exact h.run (List.forall_mem_cons.mpr ⟨trivial, hevent⟩)
      | cancelled => exact h.run (List.forall_mem_cons.mpr ⟨trivial, hevent⟩)
      | attested => exact h.run (List.forall_mem_cons.mpr ⟨trivial, hevent⟩)
      | extended => exact h.run hevent
  · exact h

end Database

theorem Catalogue.statused_after (past : List (ℤ × SorobanEvent)) : (after past).db.Statused := by
  induction past using List.reverseRecOn with
  | nil => exact Database.statused_blank
  | append_singleton past e ih =>
    rw [after, List.foldl_append, List.foldl_cons, List.foldl_nil, db_handle]
    exact ih.handle e.1 e.2

/-! ### What the routes answer -/

section Routes

variable {parse : Schema → Json → Schema.Outcome} {v w : Json}

theorem exists_listParams (hz : Schema.Documented parse)
    (h : parse listAuctionsSchema v = .parsed w) :
    (v.prop "status" = .undefined ∨ ∃ status ∈ auctionStatuses, v.prop "status" = .string status) ∧
      w.prop "status" = v.prop "status" ∧ numberOr (queryNumber (w.prop "limit")) 50 ≤ 500 := by
  obtain ⟨-, hfields, -⟩ := hz.object_parsed _ _ _ (by decide) h
  have hlimit := (pageLimit_parsed hz (hfields "limit"
    (.optional (pageLimit (some "Limit must be a positive integer"))) (by simp))).2.2
  rcases (hz.optional _ _ _).mp (hfields "status" _ List.mem_cons_self) with
    ⟨hnone, hw⟩ | ⟨-, hgiven⟩
  · exact ⟨Or.inl hnone, hw.trans hnone.symm, hlimit⟩
  · obtain ⟨hstatus, hw⟩ := (hz.oneOf _ _ _ _).mp hgiven
    exact ⟨Or.inr hstatus, hw, hlimit⟩

/-- A row of a page is a row of the table, and has the status that was asked for. -/
theorem mem_list {c : Catalogue} {params : AuctionParams} {row : AuctionRecord}
    (h : row ∈ c.list params) :
    row ∈ c.rows ∧ ∀ status, Database.nonEmpty params.status = some status →
      row.status = status := by
  rw [Catalogue.list, getAuctions, rows_select] at h
  obtain ⟨hrow, hmeets⟩ := List.mem_filter.mp (List.mem_of_mem_drop (List.mem_of_mem_take h))
  refine ⟨hrow, fun status hstatus => ?_⟩
  rw [Meets, AuctionParams.filters, List.all_cons, hstatus, Bool.and_eq_true] at hmeets
  exact of_decide_eq_true hmeets.1

/-- **The lists by status**, from the tables after some events, with any spelling of the rows. -/
structure ListedByStatus (parse : Schema → Json → Schema.Outcome) (json : AuctionRecord → Json)
    (c : Catalogue) : Prop where
  /-- The closed auctions cannot be asked for. -/
  closed_refused : ∀ params, params.prop "status" = .string "closed" →
    (listAuctions parse c.query json params).status ≠ 200
  /-- Those that have ended can, and there are none. -/
  ended_empty : ∀ params, params.prop "status" = .string "ended" →
    (listAuctions parse c.query json params).status = 200 →
      (listAuctions parse c.query json params).body.prop "data" = .array []
  /-- An auction is in the list of those that are active only when it has a bid. -/
  active_bid : ∀ params, params.prop "status" = .string "active" →
    (listAuctions parse c.query json params).status = 200 → ∃ rows : List AuctionRecord,
      (listAuctions parse c.query json params).body.prop "data" = .array (rows.map json) ∧
        ∀ row ∈ rows, row ∈ c.rows ∧ ∃ bid ∈ c.db.bids, bid.auctionId = row.id
  /-- No page has more than five hundred. -/
  short : ∀ params, (listAuctions parse c.query json params).status = 200 →
    ∃ rows : List AuctionRecord,
      (listAuctions parse c.query json params).body.prop "data" = .array (rows.map json) ∧
        rows ⊆ c.rows ∧ rows.length ≤ 500

/-- An answer with a page: the query was valid, and the page is the one it asks for. -/
theorem exists_page_of_listAuctions (hz : Schema.Documented parse) {c : Catalogue}
    {json : AuctionRecord → Json} {params : Json}
    (h : (listAuctions parse c.query json params).status = 200) : ∃ asked : AuctionParams,
      (listAuctions parse c.query json params).body.prop "data" =
        .array ((c.list asked).map json) ∧
      (params.prop "status" = .undefined ∨
        ∃ status ∈ auctionStatuses, params.prop "status" = .string status) ∧
      asked.status = queryText (params.prop "status") ∧ numberOr asked.limit 50 ≤ 500 := by
  unfold listAuctions validate at h ⊢
  rcases hparse : parse listAuctionsSchema params with parsed | errors | err
  · obtain ⟨hstatus, hsame, hlimit⟩ := exists_listParams hz hparse
    refine ⟨⟨queryText (parsed.prop "status"), queryText (parsed.prop "format"),
      queryText (parsed.prop "seller"), queryNumber (parsed.prop "limit"),
      queryNumber (parsed.prop "offset")⟩, rfl, hstatus, ?_, hlimit⟩
    rw [hsame]
  · rw [hparse] at h
    exact absurd h (by simp)
  · rw [hparse] at h
    exact absurd h (by simp)

/-- **What the lists by status show**, whatever events the indexer has processed. -/
theorem Catalogue.listedByStatus (hz : Schema.Documented parse) (json : AuctionRecord → Json)
    (past : List (ℤ × SorobanEvent)) : ListedByStatus parse json (after past) := by
  have hstatused := Catalogue.statused_after past
  have hsound := Catalogue.sound_after past
  refine ⟨fun params hclosed hok => ?_, fun params hended hok => ?_, fun params hactive hok => ?_,
    fun params hok => ?_⟩
  · obtain ⟨asked, -, hstatus, -⟩ := exists_page_of_listAuctions hz hok
    rw [hclosed] at hstatus
    rcases hstatus with hnone | ⟨status, hmem, heq⟩
    · cases hnone
    · obtain rfl := Json.string.inj heq
      -- "closed" is not among the words of the schema
      exact absurd hmem (by decide)
  · obtain ⟨asked, hdata, -, hasked, -⟩ := exists_page_of_listAuctions hz hok
    -- "ended" is, but no handler writes it
    have hempty : (after past).list asked = [] := by
      refine List.eq_nil_iff_forall_not_mem.mpr fun row hrow => ?_
      obtain ⟨hmem, hstatus⟩ := mem_list hrow
      obtain ⟨id, -, hid⟩ := List.mem_filterMap.mp hmem
      have hknown := hstatused.known id row hid
      rw [hended, queryText] at hasked
      rw [hstatus "ended" (by rw [hasked]; decide)] at hknown
      exact absurd hknown (by decide)
    rw [hdata, hempty]
    rfl
  · obtain ⟨asked, hdata, -, hasked, -⟩ := exists_page_of_listAuctions hz hok
    refine ⟨_, hdata, fun row hrow => ?_⟩
    obtain ⟨hmem, hstatus⟩ := mem_list hrow
    obtain ⟨id, -, hid⟩ := List.mem_filterMap.mp hmem
    rw [hactive, queryText] at hasked
    -- an active row was made so by a bid
    obtain ⟨bid, hbid, hauction⟩ :=
      hstatused.active id row hid (hstatus "active" (by rw [hasked]; decide))
    exact ⟨hmem, bid, hbid, hauction.trans (hsound.id_eq id row hid).symm⟩
  · obtain ⟨asked, hdata, -, -, hlimit⟩ := exists_page_of_listAuctions hz hok
    refine ⟨_, hdata, fun row hrow => (mem_list hrow).1, ?_⟩
    rw [Catalogue.list, getAuctions, rows_select]
    exact (List.length_take_le _ _).trans hlimit

end Routes

/-- The theorem at an auction without a bid: it is not in the list of active auctions. -/
theorem listedByStatus_offered :
    (listAuctions Schema.reference (Catalogue.after [(0, Stage.offered 1)]).query
      (fun _ => .null) (.object [("status", .string "active")])).status = 200 ∧
        (Catalogue.after [(0, Stage.offered 1)]).rows.length = 1 ∧
          ListedByStatus Schema.reference (fun _ => .null)
            (Catalogue.after [(0, Stage.offered 1)]) :=
  ⟨by decide +kernel, by decide +kernel,
    Catalogue.listedByStatus Schema.documented_reference _ _⟩

end UrithiBidz
