import UrithiBidz.Book.Sealed
import UrithiBidz.Ledger.Replay

/-!
# How a sealed auction is finalized

Closing a sealed auction scans the list of revealed bids twice: once for the highest, and once
to credit the others. The first scan keeps what it has unless the next amount is higher, so of
the bids that tie it is the earliest (`UrithiBidz.exists_split_of_highestEntry`), and the list
is in the order in which the bids were revealed: it is `UrithiBidz.revealsOf`, read off the
calls (`UrithiBidz.Life.revealedBids_eq`).

The second scan skips the bids *of the winner*, not the winning bid. That is the same because
everybody is on the list once, which `UrithiBidz.Book.Consistent` says and which no single
entry point ensures: a reveal looks at another key than the one it appends to.
`UrithiBidz.Run.finalized` puts the two scans together.
-/

namespace UrithiBidz

variable {Address : Type}

/-! ### The reveals -/

/-- The bid that a call reveals, if it reveals one in the auction. -/
def Invocation.revealIn (id : U64) (i : Invocation Address) : Option (SealedBidEntry Address) :=
  match i.call with
  | .revealBid id' bidder amount _ =>
    if id' = id then some ⟨bidder, amount, i.env.timestamp⟩ else none
  | _ => none

/-- **The bids that were revealed in an auction**, in order. -/
def revealsOf (id : U64) (tr : List (Invocation Address)) : List (SealedBidEntry Address) :=
  tr.filterMap (·.revealIn id)

variable {id : U64}

theorem revealsOf_snoc (tr : List (Invocation Address)) (i : Invocation Address) :
    revealsOf id (tr ++ [i]) = revealsOf id tr ++ (i.revealIn id).toList := by
  rw [revealsOf, List.filterMap_append]
  rcases h : i.revealIn id with _ | e <;> simp [h, revealsOf]

theorem revealsOf_filter (tr : List (Invocation Address)) :
    revealsOf id (tr.filter (·.About id)) = revealsOf id tr := by
  rw [revealsOf, List.filterMap_filter]
  refine List.filterMap_congr fun i _ => ?_
  by_cases hid : i.About id
  · simp [hid]
  · suffices hnone : i.revealIn id = none by simp [hid, hnone]
    unfold Invocation.revealIn
    split
    · next id' bidder amount salt hc =>
      refine if_neg fun hcon => hid ?_
      rw [Invocation.About, hc, hcon]
      rfl
    · rfl

variable [DecidableEq Address] {me : Address}

/-- **The list is the reveals, in order.** -/
theorem Life.revealedBids_eq {tr : List (Invocation Address)} {p : Book Address × U64}
    (h : Life me id tr p) : ∀ a, p.1.auction = some a → a.revealedBids = revealsOf id tr := by
  refine induct (P := fun tr b _ => ∀ a, b.auction = some a → a.revealedBids = revealsOf id tr)
    (fun _ _ ha => by cases ha) ?_ h
  intro tr b now env s c s' events calls value b' hl ih hstep _ _ _ _ _ _ a' ha'
  rw [revealsOf_snoc]
  cases hstep with
  | create hnone =>
    obtain ⟨rfl, -⟩ := hl.unborn hnone
    rw [← Option.some.inj ha']
    rfl
  | quiet ha hq =>
    obtain rfl := Option.some.inj ha'
    rw [hq.sameBids.revealedBids, ih _ ha]
    cases hq <;> exact (List.append_nil _).symm
  | @reveal _ a bidder amount salt stored ha =>
    obtain rfl := Option.some.inj ha'
    change a.revealedBids ++ [⟨bidder, amount, env.timestamp⟩] = _
    rw [ih a ha, Invocation.revealIn]
    simp
  | withdraw ha =>
    obtain rfl := Option.some.inj (ha.symm.trans ha')
    exact (ih _ ha).trans (List.append_nil _).symm
  | _ ha =>
    obtain rfl := Option.some.inj ha'
    exact (ih _ ha).trans (List.append_nil _).symm

/-! ### The credits -/

theorem events_foldl_creditLoser (winner : SealedBidEntry Address)
    (entries : List (SealedBidEntry Address)) (acc : Storage Address × List (Event Address)) :
    (entries.foldl (creditLoser id winner) acc).2 = acc.2 ++
      (entries.filter fun e => e.bidder ≠ winner.bidder).map fun e =>
        emitBidOutbid id e.bidder e.amount := by
  induction entries generalizing acc with
  | nil => simp
  | cons e entries ih =>
    rw [List.foldl_cons, ih, creditLoser]
    by_cases hne : e.bidder ≠ winner.bidder
    · rw [if_pos hne, List.filter_cons_of_pos (by simpa using hne)]
      simp
    · rw [if_neg hne, List.filter_cons_of_neg (by simpa using hne)]

/-- **What finalizing a sealed auction does**, given the bids that were revealed. -/
structure Finalized (id : U64) (reveals : List (SealedBidEntry Address))
    (winner : SealedBidEntry Address) (s : Storage Address) (o : Outcome Address) : Prop where
  /-- The winner is the first of the highest. -/
  first_highest : ∃ past rest, reveals = past ++ winner :: rest ∧
    (∀ e ∈ past, e.amount < winner.amount) ∧ ∀ e ∈ rest, e.amount ≤ winner.amount
  /-- The winner and the winning bid are on record. -/
  recorded : ∃ a, o.storage.auctions id = some a ∧ a.highestBidder = some winner.bidder ∧
    a.highestBid = winner.amount
  /-- Everybody else who revealed is credited with exactly the revealed amount, if there is a
  machine integer for the sum. -/
  credited : ∀ e ∈ reveals, e.bidder ≠ winner.bidder → ∀ sum : I128,
    sum.val = (s.refund id e.bidder).val + e.amount.val → o.storage.refund id e.bidder = sum
  /-- Nobody is credited twice: nobody has revealed twice, and every loser has one event. -/
  once : (reveals.map (·.bidder)).Nodup ∧
    o.events = ((reveals.filter fun e => e.bidder ≠ winner.bidder).map fun e =>
      emitBidOutbid id e.bidder e.amount) ++
        [emitAuctionClosed id winner.bidder winner.amount .sealedBid]
  /-- The winner, and whoever has not revealed, are not credited. -/
  kept : ∀ x, (x = winner.bidder ∨ ∀ e ∈ reveals, e.bidder ≠ x) →
    o.storage.refund id x = s.refund id x
  /-- Nothing else is touched. -/
  apart : ∀ other, other ≠ id → o.storage.book other = s.book other

variable {H : Host Address} {tr : List (Invocation Address)} {w : World H}

/-- **A sealed auction is finalized as it should be**: whenever, in a state that a run has
reached, closing it ends it, the first of the highest reveals of the run wins and everybody
else who revealed is credited. -/
theorem Run.finalized (h : Run H tr w) {env : Env Address} {a a' : Auction Address}
    {o : Outcome Address} (ha : w.storage.auctions id = some a) (hf : a.format = .sealedBid)
    (hopen : a.status ≠ .ended) (hret : closeAuction env w.storage id = .ok o)
    (ha' : o.storage.auctions id = some a') (hended : a'.status = .ended) :
    ∃ winner, Finalized id (revealsOf id tr) winner w.storage o := by
  obtain ⟨now, -, hlife⟩ := h.life id
  -- the list of the record is that of the reveals of the run
  have hreveals : a.revealedBids = revealsOf id tr := by
    rw [← revealsOf_filter]
    exact hlife.revealedBids_eq a ha
  have hnodup := hlife.consistent.nodup a ha
  obtain ⟨a₁, ha₁, hcloses⟩ := closes_of_closeAuction hret
  obtain rfl := Option.some.inj (ha₁.symm.trans ha)
  cases hcloses with
  | idle =>
    obtain rfl := Option.some.inj (ha.symm.trans ha')
    exact absurd hended hopen
  | won _ _ hf' => cases hf.symm.trans hf'
  | unsold =>
    have hcancelled : (closeCancelledOutcome w.storage id a₁).storage.auctions id =
        some { a₁ with status := .cancelled } :=
      congrArg Book.auction (Storage.book_setAuction_self w.storage id _)
    obtain rfl := Option.some.inj (hcancelled.symm.trans ha')
    cases hended
  | @finalized winner _ _ _ _ hw =>
    have hbook : (finalizeOutcome w.storage id a₁ winner).storage.book id =
        ((w.storage.book id).creditLosers winner a₁.revealedBids).setAuction
          (a₁.withWinner winner) := by
      dsimp only [finalizeOutcome]
      rw [Storage.book_setAuction_self, book_foldl_creditLoser]
    have hrefund : ∀ x, (finalizeOutcome w.storage id a₁ winner).storage.refund id x =
        ((w.storage.book id).creditLosers winner a₁.revealedBids).refund x := fun x =>
      congrArg (fun b : Book Address => b.refund x) hbook
    refine ⟨winner, ?_, ?_, ?_, ?_, ?_, ?_⟩
    · rw [← hreveals]
      exact exists_split_of_highestEntry hw
    · exact ⟨a₁.withWinner winner, congrArg Book.auction hbook, rfl, rfl⟩
    · intro e he hne sum hsum
      rw [← hreveals] at he
      rw [hrefund, Book.refund_creditLosers_of_mem hnodup he hne]
      refine Ranged.ext ?_
      have hlo := sum.lo_le
      have hhi := sum.le_hi
      rw [hsum] at hlo hhi ⊢
      -- the sum is a value of the type, so the credit does not saturate
      exact Ranged.val_saturatingAdd_of_le hlo hhi
    · rw [← hreveals]
      refine ⟨hnodup, ?_⟩
      dsimp only [finalizeOutcome]
      rw [events_foldl_creditLoser, List.nil_append]
    · intro x hx
      rw [hrefund]
      refine Book.refund_creditLosers_of_ne (fun e he hne hcon => ?_) _
      rcases hx with rfl | hx
      · exact hne hcon.symm
      · exact hx e (hreveals ▸ he) hcon.symm
    · intro other hother
      dsimp only [finalizeOutcome]
      rw [Storage.book_setAuction_of_ne _ hother, book_foldl_creditLoser_of_ne hother]

/-- Accounts 3, 4 and 5 commit to a hundred, two hundred and two hundred, and account 5 reveals
before account 4. -/
def Stage.tying : List (Tx ℕ × Call ℕ) :=
  Stage.opening .sealedBid Stage.painting ++
    [(Stage.signed 2 1, .activateAuction 0),
      (Stage.signed 3 (.of 2), .commitBid 0 3 (Stage.commitment (.of 100) 3) (.of 100)),
      (Stage.signed 4 (.of 2), .commitBid 0 4 (Stage.commitment (.of 200) 4) (.of 200)),
      (Stage.signed 5 (.of 2), .commitBid 0 5 (Stage.commitment (.of 200) 5) (.of 200)),
      (Stage.signed 3 (.of 11), .revealBid 0 3 (.of 100) (BytesN.replicate 32 0)),
      (Stage.signed 5 (.of 12), .revealBid 0 5 (.of 200) (BytesN.replicate 32 0)),
      (Stage.signed 4 (.of 13), .revealBid 0 4 (.of 200) (BytesN.replicate 32 0))]

/-- The theorem at this tie: account 5 wins. -/
theorem finalized_tying : ∃ (w : World Stage.host) (reveals : List (SealedBidEntry ℕ))
    (winner : SealedBidEntry ℕ) (o : Outcome ℕ), reveals.map (·.bidder) = [3, 5, 4] ∧
      Finalized 0 reveals winner w.storage o ∧ winner.bidder = 5 ∧
        (o.storage.refund 0 4).val = 200 := by
  have hreplay : (replay Stage.start Stage.tying).map (fun r =>
      ((revealsOf 0 r.1).map (·.bidder),
        (r.2.storage.auctions 0).map fun a => decide (a.format = .sealedBid ∧ a.status = .active),
        (closeAuction (Stage.host.env r.2.tokens (Stage.signed 4 (.of 30))) r.2.storage
          0).toOption.bind fun o => (o.storage.auctions 0).map fun a =>
            ((o.storage.refund 0 4).val, decide (a.status = .ended ∧ a.highestBidder = some 5)))) =
      some ([3, 5, 4], some true, some (200, true)) := by
    decide +kernel
  obtain ⟨tr, w, hrun, hv⟩ := exists_run_of_replay Stage.world_refl rfl hreplay
  simp only [Prod.mk.injEq] at hv
  obtain ⟨hbidders, hbefore, hclosed⟩ := hv
  obtain ⟨a, ha, hfields⟩ := Option.map_eq_some_iff.mp hbefore
  obtain ⟨hf, hactive⟩ := of_decide_eq_true hfields
  obtain ⟨o, ho, hafter⟩ := Option.bind_eq_some_iff.mp hclosed
  obtain ⟨a', ha', hfields'⟩ := Option.map_eq_some_iff.mp hafter
  obtain ⟨hrefund, hdecided⟩ := Prod.mk.inj hfields'
  obtain ⟨hended, hfive⟩ := of_decide_eq_true hdecided
  have hret : closeAuction (Stage.host.env w.tokens (Stage.signed 4 (.of 30))) w.storage 0 =
      .ok o := by
    rcases hclose : closeAuction (Stage.host.env w.tokens (Stage.signed 4 (.of 30))) w.storage 0
      with message | o'
    · rw [hclose] at ho
      cases ho
    · rw [hclose] at ho
      rw [← Option.some.inj ho]
  obtain ⟨winner, hfinal⟩ := hrun.finalized ha hf (by rw [hactive]; decide) hret ha' hended
  refine ⟨w, _, winner, o, hbidders, hfinal, ?_, hrefund⟩
  obtain ⟨a₁, ha₁, hwinner, -⟩ := hfinal.recorded
  obtain rfl := Option.some.inj (ha'.symm.trans ha₁)
  exact Option.some.inj (hwinner.symm.trans hfive)

end UrithiBidz
