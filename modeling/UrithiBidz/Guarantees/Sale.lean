import UrithiBidz.Ledger.Replay

/-!
# Valid sales

An auction that has ended has been sold: somebody other than the seller gets the item, for at
least the reserve. Three entry points decide who that is. A bid and a purchase are checked
on the spot, so in English and Dutch auctions every sale is valid. In a sealed auction the
deposit is checked against the reserve when it is made, and nothing is checked when the bid
is revealed, neither who reveals nor what; `UrithiBidz.exists_invalid_sale` is a sale to the
seller, below the reserve.

With the two checks that the other formats make (`UrithiBidz.Invocation.RevealsForSale`),
every sale of every format is valid (`UrithiBidz.Run.validSale`).
-/

namespace UrithiBidz

variable {Address : Type} [DecidableEq Address]

/-- **A valid sale**: there is a highest bidder, who is not the seller, and the reserve is
met. -/
def Auction.ValidSale (a : Auction Address) : Prop :=
  ∃ winner, a.highestBidder = some winner ∧ winner ≠ a.seller ∧ a.reservePrice ≤ a.highestBid

/-- The call is not the reveal of a bid by the seller, or below the reserve. -/
def Invocation.RevealsForSale (i : Invocation Address) : Prop :=
  match i.call with
  | .revealBid id bidder amount _ =>
    ∀ a ∈ i.before.auctions id, bidder ≠ a.seller ∧ a.reservePrice ≤ amount
  | _ => True

instance : (i : Invocation Address) → Decidable i.RevealsForSale
  | ⟨_, _, call, _⟩ => by
    induction call using Call.casesOn <;> dsimp only [Invocation.RevealsForSale] <;> infer_instance

/-- **What makes every sale valid**: every candidate for the sale would make a valid one, and
an auction does not end without a winner. -/
structure Auction.Saleable (a : Auction Address) : Prop where
  /-- The highest bidder, if there is one, would be a valid buyer. -/
  standing : ∀ x, a.highestBidder = some x → x ≠ a.seller ∧ a.reservePrice ≤ a.highestBid
  /-- So would everybody who has revealed a bid. -/
  revealed : ∀ e ∈ a.revealedBids, e.bidder ≠ a.seller ∧ a.reservePrice ≤ e.amount
  /-- An auction that has ended has a highest bidder. -/
  winner : a.status = .ended ∨ a.status = .settled → a.highestBidder ≠ none

omit [DecidableEq Address] in
theorem Auction.Saleable.valid {a : Auction Address} (h : a.Saleable)
    (hs : a.status = .ended ∨ a.status = .settled) : a.ValidSale := by
  obtain ⟨x, hx⟩ := Option.ne_none_iff_exists'.mp (h.winner hs)
  exact ⟨x, hx, h.standing x hx⟩

omit [DecidableEq Address] in
/-- A record with the same candidates is as saleable, if it has not ended without a winner. -/
theorem Auction.Saleable.of_sameBids {a a' : Auction Address} (h : a.Saleable)
    (hbids : a.SameBids a')
    (hs : a'.status = .ended ∨ a'.status = .settled → a.highestBidder ≠ none) :
    a'.Saleable := by
  refine ⟨?_, ?_, hbids.highestBidder ▸ hs⟩
  · rw [hbids.highestBidder, hbids.highestBid, hbids.seller, hbids.reservePrice]
    exact h.standing
  · rw [hbids.revealedBids, hbids.seller, hbids.reservePrice]
    exact h.revealed

variable {env : Env Address} {id : U64} {c : Call Address} {b b' : Book Address}
  {calls : List (TokenCall Address)} {me : Address}

omit [DecidableEq Address] in
/-- A quiet step ends an auction only if there is a winner. -/
theorem QuietStep.winner {a a' : Auction Address} (h : QuietStep env id c a a' calls)
    (ha : a.Saleable) (hs : a'.status = .ended ∨ a'.status = .settled) :
    a.highestBidder ≠ none := by
  cases h with
  | approve => exact ha.winner hs
  | idle => exact ha.winner hs
  | won _ _ _ hw => simp [hw]
  | settle _ hw => simp [hw]
  | _ => rcases hs with hs | hs <;> cases hs

/-- **Every step keeps an auction saleable**, if a reveal is one for sale. -/
theorem BookStep.saleable (h : BookStep env id c b b' calls)
    (hterms : ∀ a, b.auction = some a → a.ValidTerms me)
    (hb : ∀ a, b.auction = some a → a.Saleable)
    (hc : ∀ x amount salt, c = .revealBid id x amount salt → ∀ a, b.auction = some a →
      x ≠ a.seller ∧ a.reservePrice ≤ amount) :
    ∀ a', b'.auction = some a' → a'.Saleable := by
  intro a' ha'
  cases h with
  | withdraw => exact hb a' ha'
  | create =>
    rw [← Option.some.inj ha']
    refine ⟨?_, ?_, ?_⟩
    · rintro x ⟨⟩
    · rintro e ⟨⟩
    · rintro (hs | hs) <;> cases hs
  | quiet ha hq =>
    obtain rfl := Option.some.inj ha'
    exact (hb _ ha).of_sameBids hq.sameBids (hq.winner (hb _ ha))
  | commit ha =>
    rw [← Option.some.inj ha']
    exact ⟨(hb _ ha).standing, (hb _ ha).revealed, (hb _ ha).winner⟩
  | takeBack ha =>
    rw [← Option.some.inj ha']
    exact ⟨(hb _ ha).standing, (hb _ ha).revealed, (hb _ ha).winner⟩
  | firstBid ha ok =>
    rw [← Option.some.inj ha']
    refine ⟨?_, (hb _ ha).revealed, fun _ => Option.some_ne_none _⟩
    rintro x ⟨⟩
    exact ⟨ok.not_seller, ok.reserve⟩
  | outbid ha ok =>
    rw [← Option.some.inj ha']
    refine ⟨?_, (hb _ ha).revealed, fun _ => Option.some_ne_none _⟩
    rintro x ⟨⟩
    exact ⟨ok.not_seller, ok.reserve⟩
  | buy ha ok =>
    rw [← Option.some.inj ha']
    refine ⟨?_, (hb _ ha).revealed, fun _ => Option.some_ne_none _⟩
    rintro x ⟨⟩
    -- the price falls to the reserve and no further
    have hlt := (hterms _ ha).dutch ok.format
    exact ⟨ok.not_seller, reserve_le_getCurrentPrice (Ranged.le_iff.mpr hlt.le)⟩
  | reveal ha _ ok =>
    rw [← Option.some.inj ha']
    refine ⟨(hb _ ha).standing, ?_, (hb _ ha).winner⟩
    intro e he
    rcases List.mem_append.mp he with he | he
    · exact (hb _ ha).revealed e he
    · rw [List.mem_singleton.mp he]
      -- nothing in the code says so of a reveal, which is why it is assumed
      have hsale := hc _ _ _ rfl _ ha
      exact hsale
  | finalize ha _ _ _ _ hw =>
    rw [← Option.some.inj ha']
    refine ⟨?_, (hb _ ha).revealed, fun _ => Option.some_ne_none _⟩
    rintro x ⟨⟩
    exact (hb _ ha).revealed _ (mem_of_highestEntry hw)

/-- An auction stays saleable through a life of reveals for sale. -/
theorem Life.saleable {tr : List (Invocation Address)} {p : Book Address × U64}
    (h : Life me id tr p) (hc : ∀ i ∈ tr, i.RevealsForSale) :
    ∀ a, p.1.auction = some a → a.Saleable := by
  refine induct_of (P := fun _ b _ => ∀ a, b.auction = some a → a.Saleable)
    (fun _ _ ha => by cases ha) ?_ h hc
  intro tr b now env s c s' events calls value b' hl ih hcall hstep _ _ _ _ hbefore _
  refine hstep.saleable hl.validTerms ih ?_
  rintro x amount salt rfl a ha
  rw [← hbefore] at ha
  exact hcall a ha

variable {H : Host Address} {tr : List (Invocation Address)} {w : World H}

/-- **Every sale is a valid sale**, in every run whose reveals are for sale. -/
theorem Run.validSale (h : Run H tr w) (hc : ∀ i ∈ tr, i.RevealsForSale) :
    ∀ id a, w.storage.auctions id = some a → a.status = .ended ∨ a.status = .settled →
      a.ValidSale := by
  intro id a ha hs
  obtain ⟨now, -, hlife⟩ := h.life id
  have hsale := hlife.saleable (fun i hi => hc i (List.mem_filter.mp hi).1) a ha
  exact hsale.valid hs

/-- A bid is sealed, revealed and wins. -/
def Stage.sealedSale : List (Tx ℕ × Call ℕ) :=
  Stage.opening .sealedBid Stage.painting ++
    [(Stage.signed 2 1, .activateAuction 0),
      (Stage.signed 3 (.of 2), .commitBid 0 3 (Stage.commitment (.of 100) 3) (.of 100)),
      (Stage.signed 3 (.of 11), .revealBid 0 3 (.of 100) (BytesN.replicate 32 0)),
      (Stage.signed 4 (.of 30), .closeAuction 0)]

/-- The theorem at a sealed sale. -/
theorem validSale_sealedSale : ∃ a : Auction ℕ,
    (a.status = .ended ∧ a.highestBid = .of 100) ∧ a.ValidSale := by
  have hreplay : (replay Stage.start Stage.sealedSale).map (fun r =>
      ((r.2.storage.auctions 0).map fun a => (a.status, a.highestBid),
        decide (∀ i ∈ r.1, i.RevealsForSale))) = some (some (.ended, .of 100), true) := by
    decide +kernel
  obtain ⟨tr, w, hrun, hv⟩ := exists_run_of_replay Stage.world_refl rfl hreplay
  obtain ⟨ha, hc⟩ := Prod.mk.inj hv
  obtain ⟨a, ha, hs⟩ := Option.map_eq_some_iff.mp ha
  obtain ⟨hs, hbid⟩ := Prod.mk.inj hs
  exact ⟨a, ⟨hs, hbid⟩, hrun.validSale (of_decide_eq_true hc) 0 a ha (Or.inl hs)⟩

/-- **A sealed auction can be sold to its seller, below the reserve**: the seller deposits
the reserve for a bid of one. -/
theorem exists_invalid_sale : ¬∀ (tr : List (Invocation ℕ)) (w : World Stage.host),
    Run Stage.host tr w → ∀ id a, w.storage.auctions id = some a →
      a.status = .ended ∨ a.status = .settled → a.ValidSale := by
  intro hclaim
  have hreplay : (replay Stage.start (Stage.opening .sealedBid Stage.painting ++
      [(Stage.signed 2 1, .activateAuction 0),
        (Stage.signed 2 (.of 2), .commitBid 0 2 (Stage.commitment 1 2) (.of 10)),
        (Stage.signed 2 (.of 11), .revealBid 0 2 1 (BytesN.replicate 32 0)),
        (Stage.signed 4 (.of 30), .closeAuction 0)])).map (fun r =>
          (r.2.storage.auctions 0).map fun a =>
            (a.status, a.highestBidder, a.seller, a.highestBid, a.reservePrice)) =
        some (some (.ended, some 2, 2, 1, .of 10)) := by decide +kernel
  obtain ⟨tr, w, hrun, hv⟩ := exists_run_of_replay Stage.world_refl rfl hreplay
  obtain ⟨a, ha, hfields⟩ := Option.map_eq_some_iff.mp hv
  simp only [Prod.mk.injEq] at hfields
  obtain ⟨hs, hbidder, hseller, -, -⟩ := hfields
  obtain ⟨winner, hwinner, hne, -⟩ := hclaim tr w hrun 0 a ha (Or.inl hs)
  rw [hbidder] at hwinner
  exact hne ((Option.some.inj hwinner).symm.trans hseller.symm)

end UrithiBidz
