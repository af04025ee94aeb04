import UrithiBidz.Book.Sealed
import UrithiBidz.Ledger.Replay

/-!
# Cancelling before there are bids

A seller may cancel an auction before anybody has bid on it. What `cancel_auction` looks at
is the highest bidder, and in an English or a Dutch auction that is the bid. A sealed auction
has no highest bidder until it is finalized, and its bids are the commitments and what was
revealed of them; `UrithiBidz.exists_cancelled_with_bid` cancels one with a deposit in it.

The record counts the commitments, so the check that is missing could be made: when a
cancellation goes through, there are no bids exactly if that count is zero
(`UrithiBidz.Run.unbid_iff_of_cancel`).
-/

namespace UrithiBidz

variable {Address : Type} [DecidableEq Address]

/-- **A bid of a bidder**: the standing bid of an English auction or the purchase of a Dutch
one, a commitment that was neither revealed nor taken back, or a revealed bid. -/
def Book.HasBid (b : Book Address) (x : Address) : Prop :=
  (∃ a, b.auction = some a ∧ a.highestBidder = some x) ∨
    (b.commitments x ≠ none ∧ b.revealed x = none) ∨ b.revealed x ≠ none

omit [DecidableEq Address] in
/-- When nobody is ahead, there are no bids exactly if no commitments are counted. -/
theorem Book.Consistent.unbid_iff {b : Book Address} (h : b.Consistent) {a : Auction Address}
    (ha : b.auction = some a) (hnone : a.highestBidder = none) :
    (∀ x, ¬b.HasBid x) ↔ a.bidderCount = 0 := by
  obtain ⟨bidders, hmem, hcard⟩ := h.counted a ha
  constructor
  · intro hno
    have hempty : bidders = ∅ := by
      refine Finset.eq_empty_of_forall_notMem fun x hx => ?_
      have hx := (hmem x).mp hx
      -- a commitment is a bid, revealed or not
      by_cases hr : b.revealed x = none
      · exact hno x (Or.inr (Or.inl ⟨hx, hr⟩))
      · exact hno x (Or.inr (Or.inr hr))
    refine Ranged.ext ?_
    rw [← hcard, hempty]
    rfl
  · intro hzero x hbid
    have hcardZero : bidders.card = 0 := by
      have hval : (bidders.card : ℤ) = 0 := by rw [hcard, hzero, U64.val_zero]
      omega
    have hnot : b.commitments x = none := by
      by_contra hcon
      have hx := (hmem x).mpr hcon
      rw [Finset.card_eq_zero.mp hcardZero] at hx
      exact absurd hx (Finset.notMem_empty x)
    -- nobody is ahead, nobody has committed, and a reveal needs a commitment
    rcases hbid with ⟨a', ha', hx⟩ | ⟨hx, -⟩ | hx
    · obtain rfl := Option.some.inj (ha.symm.trans ha')
      rw [hnone] at hx
      cases hx
    · exact hx hnot
    · exact h.committed x hx hnot

variable {H : Host Address} {tr : List (Invocation Address)} {w : World H}

/-- **A cancellation that goes through finds no bids exactly if no commitments are
counted.** -/
theorem Run.unbid_iff_of_cancel (h : Run H tr w) {i : Invocation Address} (hi : i ∈ tr)
    {id : U64} (hcall : i.call = .cancelAuction id) {a : Auction Address}
    (ha : i.before.auctions id = some a) :
    (∀ x, ¬(i.before.book id).HasBid x) ↔ a.bidderCount = 0 := by
  have habout : i.About id := by rw [Invocation.About, hcall]; rfl
  obtain ⟨past, p, p', -, hlife, hs, hbefore, -⟩ := h.lives_of_mem hi habout
  have hconsistent := hlife.consistent
  rw [← hbefore] at hconsistent
  refine hconsistent.unbid_iff ha ?_
  obtain ⟨past, t, t', -, hstep, -⟩ := h.of_mem hi
  have hret := hstep.returns.2.2.1
  rw [hcall] at hret
  obtain ⟨a', ha', ok, -⟩ := cancelAuction_eq_ok_iff.mp hret
  obtain rfl := Option.some.inj (ha.symm.trans ha')
  exact ok.no_bidder

/-- An auction is opened and cancelled. -/
def Stage.cancellation : List (Tx ℕ × Call ℕ) :=
  Stage.opening .sealedBid Stage.painting ++
    [(Stage.signed 2 1, .activateAuction 0), (Stage.signed 2 (.of 3), .cancelAuction 0)]

/-- The theorem at an auction that nobody has bid on. -/
theorem unbid_cancellation : ∃ i : Invocation ℕ, i.call = .cancelAuction 0 ∧
    (i.outcome.storage.auctions 0).map (·.status) = some .cancelled ∧
      ∀ x, ¬(i.before.book 0).HasBid x := by
  have hreplay : (replay Stage.start Stage.cancellation).map (fun r =>
      r.1.any fun i => i.call = .cancelAuction 0 ∧
        (i.outcome.storage.auctions 0).map (·.status) = some .cancelled ∧
          (i.before.auctions 0).map (·.bidderCount) = some 0) = some true := by decide +kernel
  obtain ⟨tr, w, hrun, hany⟩ := exists_run_of_replay Stage.world_refl rfl hreplay
  obtain ⟨i, hi, hfacts⟩ := List.any_eq_true.mp hany
  obtain ⟨hcall, hstatus, hcount⟩ := of_decide_eq_true hfacts
  obtain ⟨a, ha, hcount⟩ := Option.map_eq_some_iff.mp hcount
  exact ⟨i, hcall, hstatus, (hrun.unbid_iff_of_cancel hi hcall ha).mpr hcount⟩

/-- **A sealed auction can be cancelled with a bid in it.** -/
theorem exists_cancelled_with_bid : ¬∀ (tr : List (Invocation ℕ)) (w : World Stage.host),
    Run Stage.host tr w → ∀ i ∈ tr, ∀ id, i.call = .cancelAuction id →
      ∀ x, ¬(i.before.book id).HasBid x := by
  intro hclaim
  have hreplay : (replay Stage.start (Stage.opening .sealedBid Stage.painting ++
      [(Stage.signed 2 1, .activateAuction 0),
        (Stage.signed 3 (.of 2), .commitBid 0 3 (Stage.commitment (.of 100) 3) (.of 100)),
        (Stage.signed 2 (.of 3), .cancelAuction 0)])).map (fun r =>
          r.1.any fun i => i.call = .cancelAuction 0 ∧
            (i.before.commitments 0 3 ≠ none ∧ i.before.revealed 0 3 = none)) = some true := by
    decide +kernel
  obtain ⟨tr, w, hrun, hany⟩ := exists_run_of_replay Stage.world_refl rfl hreplay
  obtain ⟨i, hi, hfacts⟩ := List.any_eq_true.mp hany
  obtain ⟨hcall, hbid⟩ := of_decide_eq_true hfacts
  exact hclaim tr w hrun i hi 0 hcall 3 (Or.inr (Or.inl hbid))

end UrithiBidz
