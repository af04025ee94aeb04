import UrithiBidz.Guarantees.Deadline

/-!
# The bidding in an English auction

The record of an English auction keeps two things of its bids, the last amount and who bid
it. Everything else that bidders are promised is about the sequence of all bids: each meets the
reserve, each outbids the one before by the increment, and the winner in the end is the one
who bid most.

`UrithiBidz.bidsOf` is that sequence, read off the calls. `UrithiBidz.Auction.Tracks` says
how it fits the record, and a life keeps that (`UrithiBidz.Life.tracks`), since a bid adds to
both and no other call on an English auction touches either. An increment is positive, so the
bids rise, and the last is the highest. Only at the end of the range, where the least
acceptable bid saturates, may a bid equal the one before.
-/

namespace UrithiBidz

variable {Address : Type}

/-! ### The bids -/

/-- The bid that a call is, if it is one on the auction. -/
def Call.bidOn (id : U64) : Call Address → Option (Address × I128)
  | .placeBid id' bidder amount => if id' = id then some (bidder, amount) else none
  | _ => none

/-- **The bids on an auction**, in order. -/
def bidsOf (id : U64) (tr : List (Invocation Address)) : List (Address × I128) :=
  tr.filterMap fun i => i.call.bidOn id

variable {id : U64}

theorem Call.bidOn_eq_some_iff {c : Call Address} {x : Address} {amount : I128} :
    c.bidOn id = some (x, amount) ↔ c = .placeBid id x amount := by
  cases c with
  | placeBid id' bidder amount' =>
    simp only [bidOn, Option.ite_none_right_eq_some, Option.some.injEq, Prod.mk.injEq,
      placeBid.injEq]
  | _ => simp [bidOn]

theorem bidsOf_append (tr tr' : List (Invocation Address)) :
    bidsOf id (tr ++ tr') = bidsOf id tr ++ bidsOf id tr' :=
  List.filterMap_append

theorem bidsOf_snoc_of_bids {tr : List (Invocation Address)} {i : Invocation Address}
    {x : Address} {amount : I128} (h : i.Bids id x amount) :
    bidsOf id (tr ++ [i]) = bidsOf id tr ++ [(x, amount)] := by
  rw [bidsOf_append]
  simp [bidsOf, Call.bidOn_eq_some_iff.mpr h]

theorem bidsOf_snoc {tr : List (Invocation Address)} {i : Invocation Address}
    (h : ∀ x amount, ¬i.Bids id x amount) : bidsOf id (tr ++ [i]) = bidsOf id tr := by
  have hnone : i.call.bidOn id = none := by
    refine Option.eq_none_iff_forall_ne_some.mpr ?_
    rintro ⟨x, amount⟩ hbid
    exact h x amount (Call.bidOn_eq_some_iff.mp hbid)
  rw [bidsOf_append]
  simp [bidsOf, hnone]

theorem bidsOf_filter (tr : List (Invocation Address)) :
    bidsOf id (tr.filter (·.About id)) = bidsOf id tr := by
  rw [bidsOf, List.filterMap_filter]
  refine List.filterMap_congr fun i _ => ?_
  by_cases hid : i.About id
  · simp [hid]
  · have hnone : i.call.bidOn id = none := by
      refine Option.eq_none_iff_forall_ne_some.mpr ?_
      rintro ⟨x, amount⟩ hbid
      exact hid (i.about_of_bids (Call.bidOn_eq_some_iff.mp hbid))
    simp [hid, hnone]

/-! ### The record and the bids -/

/-- **The record of an English auction fits its bids.** -/
structure Auction.Tracks (a : Auction Address) (bids : List (Address × I128)) : Prop where
  /-- Every bid meets the reserve. -/
  reserve : ∀ bid ∈ bids, a.reservePrice ≤ bid.2
  /-- The first is at least the increment. -/
  first : ∀ bid ∈ bids.head?, a.minIncrement ≤ bid.2
  /-- No bid is lower than the one before, and it outbids it by the increment, unless it is
  as high as a bid can be. -/
  rising : bids.IsChain fun bid next => bid.2 ≤ next.2 ∧
    (next.2 < I128.max → bid.2.val + a.minIncrement.val ≤ next.2.val)
  /-- The highest bidder is the last. -/
  bidder : a.highestBidder = bids.getLast?.map (·.1)
  /-- The highest bid is the last, or zero. -/
  price : a.highestBid = (bids.getLast?.map (·.2)).getD 0
  /-- It is the highest. -/
  highest : ∀ bid ∈ bids, bid.2 ≤ a.highestBid

/-- A record with the same terms and the same bids fits the same bids. -/
theorem Auction.Tracks.of_sameBids {a a' : Auction Address} {bids : List (Address × I128)}
    (h : a.Tracks bids) (hsame : a.SameBids a') : a'.Tracks bids := by
  refine ⟨?_, ?_, ?_, ?_, ?_, ?_⟩
  · rw [hsame.reservePrice]
    exact h.reserve
  · rw [hsame.minIncrement]
    exact h.first
  · rw [hsame.minIncrement]
    exact h.rising
  · rw [hsame.highestBidder]
    exact h.bidder
  · rw [hsame.highestBid]
    exact h.price
  · rw [hsame.highestBid]
    exact h.highest

/-- **An acceptable bid outbids the highest.** -/
theorem AcceptsBid.outbids {env : Env Address} {a : Auction Address} {x : Address}
    {amount : I128} (ok : AcceptsBid env a x amount) (hinc : 0 < a.minIncrement.val) :
    a.highestBid ≤ amount ∧
      (amount < I128.max → a.highestBid.val + a.minIncrement.val ≤ amount.val) := by
  have hle := Ranged.le_iff.mp ok.increment
  have hmax := a.highestBid.le_hi
  rw [Ranged.val_saturatingAdd] at hle
  rw [Ranged.le_iff, Ranged.lt_iff, I128.val_max]
  omega

/-- A bid is added to the bids. -/
theorem Auction.Tracks.bid {env : Env Address} {a : Auction Address}
    {bids : List (Address × I128)} (h : a.Tracks bids) {x : Address} {amount : I128}
    (ok : AcceptsBid env a x amount) (hinc : 0 < a.minIncrement.val) :
    (a.withBid env.timestamp x amount).Tracks (bids ++ [(x, amount)]) := by
  obtain ⟨hle, hraise⟩ := ok.outbids hinc
  refine ⟨?_, ?_, ?_, ?_, ?_, ?_⟩
  · intro bid hbid
    rcases List.mem_append.mp hbid with hbid | hbid
    · exact h.reserve bid hbid
    · rw [List.mem_singleton.mp hbid]
      exact ok.reserve
  · cases hbids : bids with
    | nil =>
      -- the first bid is held against zero
      have hzero : a.highestBid = 0 := by rw [h.price, hbids]; rfl
      intro bid hbid
      obtain rfl : (x, amount) = bid := by simpa using hbid
      have hleast := Ranged.le_iff.mp ok.increment
      have hrange := a.minIncrement.le_hi
      rw [Ranged.val_saturatingAdd, hzero, I128.val_zero] at hleast
      change a.minIncrement.val ≤ amount.val
      omega
    | cons bid rest =>
      rw [hbids] at h
      exact h.first
  · refine h.rising.append (List.isChain_singleton _) ?_
    intro bid hbid next hnext
    obtain rfl : (x, amount) = next := by simpa using hnext
    have hprice : a.highestBid = bid.2 := by
      rw [h.price, Option.mem_def.mp hbid]
      rfl
    rw [hprice] at hle hraise
    exact ⟨hle, hraise⟩
  · rw [List.getLast?_concat]
    rfl
  · rw [List.getLast?_concat]
    rfl
  · intro bid hbid
    rcases List.mem_append.mp hbid with hbid | hbid
    · exact (h.highest bid hbid).trans hle
    · rw [List.mem_singleton.mp hbid]
      exact le_refl amount.val

/-! ### Along a life -/

variable [DecidableEq Address] {env : Env Address} {c : Call Address} {b b' : Book Address}
  {calls : List (TokenCall Address)} {me : Address}

/-- **On an English auction only a bid touches the bids.** -/
theorem BookStep.sameBids_of_english (h : BookStep env id c b b' calls) {a a' : Auction Address}
    (ha : b.auction = some a) (ha' : b'.auction = some a') (hf : a.format = .english)
    (hc : ∀ x amount, c ≠ .placeBid id x amount) : a.SameBids a' := by
  cases h.english ha hf with
  | quiet hq =>
    obtain rfl := Option.some.inj ha'
    exact hq.sameBids
  | firstBid => exact absurd rfl (hc _ _)
  | outbid => exact absurd rfl (hc _ _)
  | withdraw =>
    obtain rfl := Option.some.inj (ha.symm.trans ha')
    exact ⟨by constructor <;> rfl, rfl, rfl, rfl, rfl⟩

theorem BookStep.winner_of_ends (h : BookStep env id (.closeAuction id) b b' calls)
    {a a' : Auction Address} (ha : b.auction = some a) (ha' : b'.auction = some a')
    (hf : a.format = .english) (hopen : a.status ≠ .ended) (hended : a'.status = .ended) :
    ∃ winner, a.highestBidder = some winner := by
  cases h.english ha hf with
  | quiet hq =>
    obtain rfl := Option.some.inj ha'
    cases hq with
    | won _ _ _ hw => exact ⟨_, hw⟩
    | unsold => cases hended
    | idle => exact absurd hended hopen

/-- **The record fits the bids throughout.** -/
theorem Life.tracks {tr : List (Invocation Address)} {p : Book Address × U64}
    (h : Life me id tr p) : ∀ a, p.1.auction = some a → a.format = .english →
      a.Tracks (bidsOf id tr) := by
  refine induct (P := fun tr b _ => ∀ a, b.auction = some a → a.format = .english →
    a.Tracks (bidsOf id tr)) (fun _ _ ha => by cases ha) ?_ h
  intro tr b now env s c s' events calls value b' hl ih hstep _ _ _ _ _ _ a' ha' hf'
  cases ha : b.auction with
  | none =>
    -- the auction has just been created
    obtain ⟨rfl, -⟩ := hl.unborn ha
    obtain ⟨params, config, rfl, -, rfl, -⟩ := hstep.of_none ha
    rw [← Option.some.inj ha']
    refine ⟨?_, ?_, List.isChain_nil, rfl, rfl, ?_⟩
    · exact fun bid hbid => absurd hbid List.not_mem_nil
    · exact fun bid hbid => by cases hbid
    · exact fun bid hbid => absurd hbid List.not_mem_nil
  | some a =>
    by_cases hbid : ∃ x amount, c = .placeBid id x amount
    · obtain ⟨x, amount, rfl⟩ := hbid
      obtain ⟨a₁, ha₁, ok, hplaced⟩ := hstep.placed
      obtain rfl := Option.some.inj (ha.symm.trans ha₁)
      rw [bidsOf_snoc_of_bids ?_,
        ← Option.some.inj (hplaced.symm.trans ha')]
      · exact (ih a ha ok.format).bid ok ((hl.validTerms a ha).english ok.format)
      · rfl
    · have hno : ∀ x amount, c ≠ .placeBid id x amount := fun x amount hc =>
        hbid ⟨x, amount, hc⟩
      have hf : a.format = .english := (hstep.sameTerms_of_some ha ha').format.symm.trans hf'
      rw [bidsOf_snoc hno]
      exact (ih a ha hf).of_sameBids (hstep.sameBids_of_english ha ha' hf hno)

/-! ### Along a run -/

variable {H : Host Address} {tr : List (Invocation Address)} {w : World H}

/-- **The bidding is fair**: what bidders are promised of an English auction, along a run. -/
structure FairBidding {H : Host Address} (id : U64) (tr : List (Invocation Address))
    (w : World H) : Prop where
  /-- A bid is placed by somebody other than the seller, while the bidding is open. -/
  admitted : ∀ i ∈ tr, ∀ x amount, i.Bids id x amount → ∃ a, i.before.auctions id = some a ∧
    a.format = .english ∧ a.status = .active ∧ x ≠ a.seller ∧
      a.startTime ≤ i.env.timestamp ∧ i.env.timestamp < a.endTime
  /-- The record fits the bids. -/
  tracks : ∀ a, w.storage.auctions id = some a → a.format = .english →
    a.Tracks (bidsOf id tr)
  /-- When the auction ends, the winner and the price are those of the last bid, and of all
  bids so far it is the highest. -/
  won : ∀ past i later, tr = past ++ i :: later → i.Ends id →
    ∀ a, i.outcome.storage.auctions id = some a → a.format = .english →
      ∃ winner, (bidsOf id past).getLast? = some (winner, a.highestBid) ∧
        a.highestBidder = some winner ∧ ∀ bid ∈ bidsOf id past, bid.2 ≤ a.highestBid

theorem Run.tracks (h : Run H tr w) : ∀ a, w.storage.auctions id = some a →
    a.format = .english → a.Tracks (bidsOf id tr) := by
  intro a ha hf
  obtain ⟨now, -, hlife⟩ := h.life id
  rw [← bidsOf_filter]
  exact hlife.tracks a ha hf

/-- **The bidding is fair**, in any run. -/
theorem Run.fairBidding (h : Run H tr w) (id : U64) : FairBidding id tr w where
  admitted i hi x amount hbid := by
    have hstep := h.bookStep_of_mem hi (i.about_of_bids hbid)
    rw [show i.call = _ from hbid] at hstep
    obtain ⟨a, ha, ok, -⟩ := hstep.placed
    exact ⟨a, ha, ok.format, ok.status, ok.not_seller, ok.started, ok.before_end⟩
  tracks := h.tracks
  won := by
    rintro past i later rfl hends a' ha' hf'
    obtain ⟨t, t', hpast, hs, -⟩ := History.at_step h
    obtain ⟨hbefore, -, -, -, -⟩ := hs.returns
    have hstep := h.bookStep_of_mem (by simp) (i.about_of_ends hends)
    obtain ⟨hcall, a, a₁, ha, ha₁, hopen, hended⟩ := hends
    obtain rfl := Option.some.inj (ha'.symm.trans ha₁)
    rw [hcall] at hstep
    have hf : a.format = .english := (hstep.sameTerms_of_some ha ha').format.symm.trans hf'
    have hsame := hstep.sameBids_of_english ha ha' hf fun x amount hc => by cases hc
    obtain ⟨winner, hwinner⟩ := hstep.winner_of_ends ha ha' hf hopen hended
    rw [hbefore] at ha
    have htracks := (Run.tracks hpast a ha hf).of_sameBids hsame
    have hlast : a'.highestBidder = some winner := hsame.highestBidder.trans hwinner
    -- there is a last bid, since there is a highest bidder
    obtain ⟨⟨x, amount⟩, hbid, hx⟩ := Option.map_eq_some_iff.mp (htracks.bidder.symm.trans hlast)
    have hprice : a'.highestBid = amount := by
      rw [htracks.price, hbid]
      rfl
    obtain rfl : x = winner := hx
    exact ⟨x, by rw [hbid, hprice], hlast, htracks.highest⟩

/-- The theorem at two bids, the second of them the winning one. -/
theorem fairBidding_sniping : ∃ (tr : List (Invocation ℕ)) (w : World Stage.host),
    Run Stage.host tr w ∧ bidsOf 0 tr = [(3, .of 100), (4, .of 110)] ∧
      ((w.storage.auctions 0).map fun a => (a.status, a.highestBidder)) =
        some (.ended, some 4) ∧ FairBidding 0 tr w := by
  have hreplay : (replay Stage.start Stage.sniping).map (fun r => (bidsOf 0 r.1,
      (r.2.storage.auctions 0).map fun a => (a.status, a.highestBidder))) =
        some ([(3, .of 100), (4, .of 110)], some (.ended, some 4)) := by decide +kernel
  obtain ⟨tr, w, hrun, hv⟩ := exists_run_of_replay Stage.world_refl rfl hreplay
  obtain ⟨hbids, hend⟩ := Prod.mk.inj hv
  exact ⟨tr, w, hrun, hbids, hend, hrun.fairBidding 0⟩

end UrithiBidz
