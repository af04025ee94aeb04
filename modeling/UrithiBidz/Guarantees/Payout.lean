import UrithiBidz.Guarantees.Solvency

/-!
# When a price can be paid out

A settlement splits the highest bid with checked arithmetic, and panics if anything does not
fit. Of the six operations only the two products can fail: a quotient is smaller than what is
divided, and both shares together are a part of the price, since creation has checked the rates
(`UrithiBidz.calculateSplit_cases`).

No operation bounds a bid from above, so the products can fail. An amount that was escrowed in
an honest token is bounded by what there is of the token, but a revealed amount is not tied to
the deposit, and whoever reveals the greatest integer wins an auction that cannot be settled
(`UrithiBidz.exists_unsplittable`). Every price up to a ten-thousandth of the greatest integer
is paid out.
-/

namespace UrithiBidz

variable {Address : Type} [DecidableEq Address] {H : Host Address}
  {tr : List (Invocation Address)} {w : World H}

/-- **When a price can be split.** -/
structure Auction.Splits (a : Auction Address) (s : Storage Address) (id : U64) : Prop where
  /-- There is a split exactly if both products fit. -/
  returns_iff : (∃ b, calculateSplit a.highestBid a.royaltyBps a.platformFeeBps = .ok b) ↔
    ShareFits a.highestBid a.royaltyBps ∧ ShareFits a.highestBid a.platformFeeBps
  /-- They do, up to a ten-thousandth of the greatest integer. -/
  fits : |a.highestBid.val| ≤ I128.max.val / 10000 →
    ∃ b, calculateSplit a.highestBid a.royaltyBps a.platformFeeBps = .ok b
  /-- If one of them does not, the auction cannot be settled. -/
  blocked : ¬(ShareFits a.highestBid a.royaltyBps ∧ ShareFits a.highestBid a.platformFeeBps) →
    (∃ message ∈ ["Royalty calculation overflow", "Platform fee calculation overflow"],
      calculateSplit a.highestBid a.royaltyBps a.platformFeeBps = .error message) ∧
    ∀ env o, settleAuction env s id ≠ .ok o

/-- **A price is split unless one of the products overflows**, for every auction in every state
that a run reaches. -/
theorem Run.splits (h : Run H tr w) {id : U64} {a : Auction Address}
    (ha : w.storage.auctions id = some a) : a.Splits w.storage id := by
  obtain ⟨now, -, hlife⟩ := h.life id
  have hfees := (hlife.validTerms a ha).fees
  have hroyalty : a.royaltyBps.val ≤ 10000 := by
    have hlo := a.platformFeeBps.lo_le
    omega
  have hfee : a.platformFeeBps.val ≤ 10000 := by
    have hlo := a.royaltyBps.lo_le
    omega
  have hcases := calculateSplit_cases a.highestBid hfees
  -- the three outcomes exclude each other
  have hiff : (∃ b, calculateSplit a.highestBid a.royaltyBps a.platformFeeBps = .ok b) ↔
      ShareFits a.highestBid a.royaltyBps ∧ ShareFits a.highestBid a.platformFeeBps := by
    constructor
    · rintro ⟨b, hb⟩
      rcases hcases with ⟨h₁, h₂, -⟩ | ⟨-, herror⟩ | ⟨-, herror⟩
      · exact ⟨h₁, h₂⟩
      · cases hb.symm.trans herror
      · cases hb.symm.trans herror
    · rintro ⟨h₁, h₂⟩
      rcases hcases with ⟨-, -, hb⟩ | ⟨hno, -⟩ | ⟨hno, -⟩
      · exact hb
      · exact absurd h₁ hno
      · exact absurd h₂ hno
  refine ⟨hiff, ?_, ?_⟩
  · intro hbid
    exact hiff.mpr ⟨shareFits_of_le hroyalty hbid, shareFits_of_le hfee hbid⟩
  · intro hno
    constructor
    · rcases hcases with ⟨h₁, h₂, -⟩ | ⟨-, herror⟩ | ⟨-, herror⟩
      · exact absurd ⟨h₁, h₂⟩ hno
      · exact ⟨_, by simp, herror⟩
      · exact ⟨_, by simp, herror⟩
    · intro env o hret
      obtain ⟨a', ha', -, winner, items, wallet, b, -, -, -, hsplit, -⟩ :=
        settleAuction_eq_ok_iff.mp hret
      obtain rfl := Option.some.inj (ha.symm.trans ha')
      exact hno (hiff.mp ⟨b, hsplit⟩)

/-- Account 3 deposits ten, reveals an amount, and wins. -/
def Stage.winning (revealed : I128) : List (Tx ℕ × Call ℕ) :=
  Stage.revealing (.of 10) revealed ++ [(Stage.signed 4 (.of 30), .closeAuction 0)]

/-- The theorem at a price of a hundred. -/
theorem splits_winning : ∃ (w : World Stage.host) (a : Auction ℕ),
    w.storage.auctions 0 = some a ∧ a.highestBid.val = 100 ∧ a.Splits w.storage 0 := by
  have hreplay : (replay Stage.start (Stage.winning (.of 100))).map (fun r =>
      (r.2.storage.auctions 0).map (·.highestBid.val)) = some (some 100) := by decide +kernel
  obtain ⟨tr, w, hrun, hv⟩ := exists_run_of_replay Stage.world_refl rfl hreplay
  obtain ⟨a, ha, hbid⟩ := Option.map_eq_some_iff.mp hv
  exact ⟨w, a, ha, hbid, hrun.splits ha⟩

/-- **Not every price can be split**: the greatest integer, revealed on a deposit of ten, cannot,
at a royalty of five per cent. -/
theorem exists_unsplittable : ¬∀ (tr : List (Invocation ℕ)) (w : World Stage.host),
    Run Stage.host tr w → ∀ (id : U64) (a : Auction ℕ), w.storage.auctions id = some a →
      a.status = .ended →
        ∃ b, calculateSplit a.highestBid a.royaltyBps a.platformFeeBps = .ok b := by
  intro hclaim
  have hreplay : (replay Stage.start (Stage.winning I128.max)).map (fun r =>
      (r.2.storage.auctions 0).map fun a => (a.status,
        (calculateSplit a.highestBid a.royaltyBps a.platformFeeBps).isOk)) =
      some (some (.ended, false)) := by decide +kernel
  obtain ⟨tr, w, hrun, hv⟩ := exists_run_of_replay Stage.world_refl rfl hreplay
  obtain ⟨a, ha, hfields⟩ := Option.map_eq_some_iff.mp hv
  obtain ⟨hended, hfailed⟩ := Prod.mk.inj hfields
  obtain ⟨b, hb⟩ := hclaim tr w hrun 0 a ha hended
  rw [hb] at hfailed
  cases hfailed

end UrithiBidz
