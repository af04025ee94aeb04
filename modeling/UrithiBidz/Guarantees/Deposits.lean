import UrithiBidz.Book.Sealed
import UrithiBidz.Guarantees.Phases

/-!
# Deposits come back

Whoever commits to a sealed bid hands over a deposit, and a bidder who does not win should
get it back. There are two ways: a deposit that was never revealed is taken back with
`refund_unrevealed`, one that was revealed is credited when the auction is finalized, and
withdrawn. Between the two there are gaps. The credit is the amount that was revealed, not
the one that was deposited; a cancelled auction is never finalized, so whoever has revealed
in it has no way back at all; and an auction that is reopened after it has ended credits
everybody again. `UrithiBidz.exists_deposit_lost` falls into the first.

`UrithiBidz.Invocation.KeepsDeposits` keeps out of them: a bid is revealed as it was
deposited, and not in a cancelled auction, an auction with revealed bids is not cancelled,
and a closed one is not reopened. Then every loser gets exactly the deposit back, with one
call (`UrithiBidz.Run.depositReturned`).
-/

namespace UrithiBidz

variable {Address : Type} [DecidableEq Address]

/-- The call withdraws the refund of the bidder. -/
def Invocation.Withdraws (id : U64) (x : Address) (i : Invocation Address) : Prop :=
  i.call = .withdrawRefund id x

/-- **The call keeps deposits returnable.** -/
def Invocation.KeepsDeposits (i : Invocation Address) : Prop :=
  match i.call with
  | .revealBid id x amount _ => (∀ c ∈ i.before.commitments id x, amount = c.amount) ∧
      0 < amount ∧ ∀ a ∈ i.before.auctions id, a.status ≠ .cancelled
  | .cancelAuction id => ∀ a ∈ i.before.auctions id, a.revealedBids = []
  | .attestPhysicalItem id _ _ =>
    ∀ a ∈ i.before.auctions id, a.status ≠ .ended ∧ a.status ≠ .settled
  | _ => True

instance : (i : Invocation Address) → Decidable i.KeepsDeposits
  | ⟨_, _, call, _⟩ => by
    induction call using Call.casesOn <;> dsimp only [Invocation.KeepsDeposits] <;> infer_instance

/-! ### What the deposits of an auction are -/

/-- **How the deposits of a sealed auction stand.** -/
structure Book.Deposited (b : Book Address) (id : U64) (tr : List (Invocation Address))
    (now : U64) (a : Auction Address) : Prop where
  /-- Nothing is credited before the auction is over. -/
  uncredited : ¬a.Over → ∀ x, b.refunds x = none
  /-- Nothing was revealed in a cancelled auction. -/
  unrevealed : a.status = .cancelled → a.revealedBids = []
  /-- A revealed bid is as deposited. -/
  covered : ∀ e ∈ a.revealedBids, 0 < e.amount ∧
    ∃ c, b.commitments e.bidder = some c ∧ c.amount = e.amount
  /-- Once the auction is over, every loser is credited, until the withdrawal. -/
  credited : a.Over → ∀ e ∈ a.revealedBids, a.highestBidder ≠ some e.bidder →
    (∀ i ∈ tr, ¬i.Withdraws id e.bidder) → b.refund e.bidder = e.amount
  /-- It is not over before the reveal phase is. -/
  late : a.Over → a.revealDeadline ≤ now

variable {env : Env Address} {id : U64} {c : Call Address} {b b' : Book Address}
  {calls : List (TokenCall Address)} {me : Address} {tr : List (Invocation Address)}
  {a a' : Auction Address} {now : U64}

omit [DecidableEq Address] in
theorem Book.Deposited.mono (h : b.Deposited id tr now a) {i : Invocation Address} {now' : U64}
    (hnow : now ≤ now') : b.Deposited id (tr ++ [i]) now' a where
  uncredited := h.uncredited
  unrevealed := h.unrevealed
  covered := h.covered
  credited hover e he hne hnot :=
    h.credited hover e he hne fun j hj => hnot j (List.mem_append_left _ hj)
  late hover := (h.late hover).trans hnow

omit [DecidableEq Address] in
/-- A quiet step does not cancel a sealed auction in which something was revealed. -/
theorem QuietStep.unrevealed (h : QuietStep env id c a a' calls) (hf : a.format = .sealedBid)
    (ha : a.status = .cancelled → a.revealedBids = [])
    (hc : c = .cancelAuction id → a.revealedBids = []) (hs : a'.status = .cancelled) :
    a.revealedBids = [] := by
  cases h with
  | approve => exact ha hs
  | idle => exact ha hs
  | cancel => exact hc rfl
  | unsold _ _ _ hr => exact hr hf
  | _ => cases hs

omit [DecidableEq Address] in
/-- **A quiet step keeps the deposits**, unless it cancels an auction with revealed bids or
reopens one. -/
theorem QuietStep.deposited (h : QuietStep env id c a a' calls) (hf : a.format = .sealedBid)
    (hold : b.Deposited id tr now a) (hcancel : c = .cancelAuction id → a.revealedBids = [])
    (hopen : ∀ custodian hash, c = .attestPhysicalItem id custodian hash → ¬a.Over) :
    (b.setAuction a').Deposited id tr now a' := by
  have hbids := h.sameBids
  have hover := h.over_iff hf hopen
  refine ⟨?_, fun hs => ?_, ?_, ?_, ?_⟩
  · rw [hover]
    exact hold.uncredited
  · rw [hbids.revealedBids]
    exact h.unrevealed hf hold.unrevealed hcancel hs
  · rw [hbids.revealedBids]
    exact hold.covered
  · rw [hover, hbids.revealedBids, hbids.highestBidder]
    exact hold.credited
  · rw [hover, hbids.revealDeadline]
    exact hold.late

/-- The commitment of somebody who has not revealed may change. -/
theorem Book.Deposited.setCommitment (hold : b.Deposited id tr now a) {y : Address}
    (hne : ∀ e ∈ a.revealedBids, e.bidder ≠ y) (r : Option (BidCommitment Address)) :
    (b.setCommitment y r).Deposited id tr now a where
  uncredited := hold.uncredited
  unrevealed := hold.unrevealed
  covered e he := by
    obtain ⟨hpos, c, hc, hamount⟩ := hold.covered e he
    refine ⟨hpos, c, ?_, hamount⟩
    rw [setCommitment_commitments, Function.update_of_ne (hne e he)]
    exact hc
  credited := hold.credited
  late := hold.late

omit [DecidableEq Address] in
theorem Book.Deposited.not_over (hold : b.Deposited id tr now a) (hnow : now < a.revealDeadline) :
    ¬a.Over := fun hover => by
  have hlate := Ranged.le_iff.mp (hold.late hover)
  have hearly := Ranged.lt_iff.mp hnow
  omega

/-- **A reveal of exactly the deposit** keeps the deposits, as long as the auction goes on. -/
theorem Book.Deposited.reveal (hold : b.Deposited id tr now a) (hopen : ¬a.Over)
    (hstatus : a.status ≠ .cancelled) {e : SealedBidEntry Address} {r : BidCommitment Address}
    (hc : b.commitments e.bidder = some r) (hpos : 0 < e.amount) (hamount : r.amount = e.amount) :
    (b.setRevealed e.bidder e).Deposited id tr now (a.withReveal e) where
  uncredited _ := hold.uncredited hopen
  unrevealed hs := absurd hs hstatus
  covered e' he' := by
    rcases List.mem_append.mp he' with he' | he'
    · exact hold.covered e' he'
    · rw [List.mem_singleton.mp he']
      exact ⟨hpos, r, hc, hamount⟩
  credited hover := absurd hover hopen
  late hover := absurd hover hopen

/-- A withdrawal settles what is owed to the bidder. -/
theorem Book.Deposited.withdraw (hold : b.Deposited id tr now a) {y : Address}
    (hy : ∃ i ∈ tr, i.Withdraws id y) : (b.setRefund y none).Deposited id tr now a where
  uncredited hopen x := by
    rw [setRefund_refunds, Function.update_apply]
    split
    · rfl
    · exact hold.uncredited hopen x
  unrevealed := hold.unrevealed
  covered := hold.covered
  credited hover e he hne hnot := by
    have hother : e.bidder ≠ y := by
      rintro rfl
      obtain ⟨i, hi, hwithdraws⟩ := hy
      exact hnot i hi hwithdraws
    rw [refund, setRefund_refunds, Function.update_of_ne hother]
    exact hold.credited hover e he hne hnot
  late := hold.late

/-- **A finalization credits every loser with the deposit.** -/
theorem Book.Deposited.finalize (hold : b.Deposited id tr now a) (hopen : ¬a.Over)
    (hnodup : (a.revealedBids.map (·.bidder)).Nodup) (hd : a.revealDeadline ≤ now)
    (winner : SealedBidEntry Address) :
    ((b.creditLosers winner a.revealedBids).setAuction (a.withWinner winner)).Deposited id tr now
      (a.withWinner winner) where
  uncredited hcon := absurd (Or.inl rfl) hcon
  unrevealed := by
    rintro ⟨⟩
  covered e he := by
    rw [setAuction_commitments, creditLosers_commitments]
    exact hold.covered e he
  credited _ e he hne _ := by
    have hloser : e.bidder ≠ winner.bidder := fun hcon => hne (by rw [hcon]; rfl)
    have hcredit := refund_creditLosers_of_mem hnodup he hloser b
    have hzero : b.refund e.bidder = 0 := by
      rw [refund, hold.uncredited hopen]
      rfl
    have hsum : (0 : I128).saturatingAdd e.amount = e.amount := by
      have h₁ := e.amount.lo_le
      have h₂ := e.amount.le_hi
      refine Ranged.ext ?_
      rw [Ranged.val_saturatingAdd_of_le] <;> simp <;> omega
    rw [hzero, hsum] at hcredit
    exact hcredit
  late _ := hd

/-- **Every step keeps the deposits**, under the conditions on reveals, cancellations and
attestations. -/
theorem BookStep.deposited (h : BookStep env id c b b' calls) (ha' : b'.auction = some a')
    (hf : a'.format = .sealedBid) (hb : b.Consistent) (hblank : b.BlankPages)
    (htime : now ≤ env.timestamp)
    (ih : ∀ a, b.auction = some a → a.format = .sealedBid → b.Deposited id tr now a)
    {s s' : Storage Address} {events : List (Event Address)} {value : Value}
    (hs : s.book id = b) {i : Invocation Address}
    (hi : i = ⟨env, s, c, ⟨s', events, calls, value⟩⟩) (hc : i.KeepsDeposits) :
    b'.Deposited id (tr ++ [i]) env.timestamp a' := by
  subst hs
  -- what was so before the step is so with one call more
  have hpast : ∀ a, (s.book id).auction = some a → a.format = .sealedBid →
      (s.book id).Deposited id (tr ++ [i]) env.timestamp a := fun a ha hf => (ih a ha hf).mono htime
  cases h with
  | create hnone =>
    obtain rfl := Option.some.inj ha'
    rw [hblank hnone]
    refine ⟨fun _ _ => rfl, ?_, ?_, ?_, ?_⟩
    · rintro ⟨⟩
    · rintro e ⟨⟩
    · rintro (hs | hs) <;> cases hs
    · rintro (hs | hs) <;> cases hs
  | @quiet _ _ a _ _ ha hq =>
    obtain rfl := Option.some.inj ha'
    have hf₀ : a.format = .sealedBid := hq.sameBids.format ▸ hf
    refine hq.deposited hf₀ (hpast a ha hf₀) (fun hcall => ?_) fun custodian hash hcall => ?_
    · subst hcall hi
      exact hc a ha
    · subst hcall hi
      rintro (hs | hs)
      · exact (hc a ha).1 hs
      · exact (hc a ha).2 hs
  | firstBid ha ok => rw [← Option.some.inj ha'] at hf; cases ok.format.symm.trans hf
  | outbid ha ok => rw [← Option.some.inj ha'] at hf; cases ok.format.symm.trans hf
  | buy ha ok => rw [← Option.some.inj ha'] at hf; cases ok.format.symm.trans hf
  | @commit _ a bidder commitment amount ha ok hn =>
    obtain rfl := Option.some.inj ha'
    have hold := hpast a ha ok.format
    -- who commits has not revealed, as nobody reveals without a commitment
    have hne : ∀ e ∈ a.revealedBids, e.bidder ≠ bidder := by
      rintro e he rfl
      obtain ⟨-, c, hc, -⟩ := hold.covered e he
      rw [hn] at hc
      cases hc
    exact { hold.setCommitment hne _ with }
  | @reveal _ a bidder amount salt stored ha hst ok hn =>
    obtain rfl := Option.some.inj ha'
    subst hi
    obtain ⟨hamount, hpos, hstatus⟩ := hc
    have hold := hpast a ha ok.format
    have hnew := hold.reveal (e := ⟨bidder, amount, env.timestamp⟩)
      (hold.not_over ok.before_deadline) (hstatus a ha) hst hpos (hamount stored hst).symm
    exact { hnew with }
  | @takeBack _ a bidder stored ha hst ok hn =>
    obtain rfl := Option.some.inj ha'
    have hold := hpast a ha ok.format
    -- who is paid back has not revealed
    have hne : ∀ e ∈ a.revealedBids, e.bidder ≠ bidder := by
      rintro e he rfl
      rw [(hb.listed a ha e).mp he] at hn
      cases hn
    exact { hold.setCommitment hne _ with }
  | @withdraw _ a bidder ha _ hr =>
    refine (hpast a' ha' hf).withdraw ⟨i, List.mem_append_right _ (List.mem_singleton_self i), ?_⟩
    rw [hi]
    rfl
  | @finalize _ a winner ha hst ht hsealed hd hw =>
    obtain rfl := Option.some.inj ha'
    have hopen : ¬a.Over := by
      rintro (hs | hs) <;> cases hst.symm.trans hs
    exact (hpast a ha hsealed).finalize hopen (hb.nodup a ha) hd winner

/-- **The deposits are kept through a life** of such calls. -/
theorem Life.deposited {p : Book Address × U64} (h : Life me id tr p)
    (hc : ∀ i ∈ tr, i.KeepsDeposits) :
    ∀ a, p.1.auction = some a → a.format = .sealedBid → p.1.Deposited id tr p.2 a := by
  refine induct_of (P := fun tr b now => ∀ a, b.auction = some a → a.format = .sealedBid →
    b.Deposited id tr now a) (fun _ _ ha => by cases ha) ?_ h hc
  intro tr b now env s c s' events calls value b' hl ih hcall hstep _ _ htime _ hbefore _ a' ha' hf
  exact hstep.deposited ha' hf hl.consistent hl.blankPages htime ih hbefore rfl hcall

/-! ### Along a run -/

/-- **Every loser can get the deposit back**, exactly and with one call: once a sealed
auction is over or cancelled and its deadlines have passed, whoever has committed, has not
won and has not been paid back yet can call one of the two, and it makes one transfer, of
the deposit. -/
def DepositReturned {H : Host Address} (id : U64) (tr : List (Invocation Address)) (w : World H) :
    Prop :=
  ∀ a, w.storage.auctions id = some a → a.format = .sealedBid → a.Over ∨ a.status = .cancelled →
    ∀ i ∈ tr, ∀ x amount, i.Deposits id x amount → a.highestBidder ≠ some x →
      (∀ j ∈ tr, ¬j.TakesBack id x ∧ ¬j.Withdraws id x) →
      ∀ env : Env Address, env.auth x = true → a.revealDeadline ≤ env.timestamp →
        a.endTime ≤ env.timestamp →
        ∃ o, (refundUnrevealed env w.storage id x = .ok o ∨
            withdrawRefund env w.storage id x = .ok o) ∧
          o.calls = [.transfer a.paymentToken env.currentContractAddress x amount]

variable {H : Host Address} {w : World H}

/-- The deposit of a bidder who has not taken it back is on record. -/
theorem Run.stored_of_deposits (h : Run H tr w) {x : Address} {amount : I128}
    {i : Invocation Address} (hi : i ∈ tr) (hdep : i.Deposits id x amount)
    (hback : ∀ j ∈ tr, ¬j.TakesBack id x) :
    ∃ c, (w.storage.book id).commitments x = some c ∧ c.amount = amount := by
  obtain ⟨now, -, hlife⟩ := h.life id
  have hkeyed := hlife.keyed
  have hmem : i ∈ tr.filter (·.About id) :=
    List.mem_filter.mpr ⟨hi, by simpa using i.about_of_commits ⟨amount, hdep⟩⟩
  have hkey : (w.storage.book id).commitments x ≠ none := by
    rcases hkeyed.commits x i hmem ⟨amount, hdep⟩ with hkey | ⟨j, hj, hjback⟩
    · exact hkey
    · exact absurd hjback (hback j (List.mem_filter.mp hj).1)
  obtain ⟨c, hc⟩ := Option.ne_none_iff_exists'.mp hkey
  obtain ⟨a, ha, -⟩ := hlife.inPhase i hmem
  obtain ⟨j, hj, hdep', -⟩ := hkeyed.paid x c a hc ha
  -- the record is of this very call
  obtain rfl := h.commit_unique (List.mem_filter.mp hj).1 hi ⟨_, hdep'⟩ ⟨_, hdep⟩
  obtain ⟨commitment, hcall⟩ := hdep
  obtain ⟨commitment', hcall'⟩ := hdep'
  refine ⟨c, hc, ?_⟩
  cases hcall.symm.trans hcall'
  rfl

/-- **Every loser can get the deposit back**, in every run whose calls keep deposits. -/
theorem Run.depositReturned (h : Run H tr w) (hc : ∀ i ∈ tr, i.KeepsDeposits) (id : U64) :
    DepositReturned id tr w := by
  intro a ha hf hs i hi x amount hdep hx hunpaid env hauth hreveal _
  obtain ⟨now, -, hlife⟩ := h.life id
  have hdeposited := hlife.deposited (fun i hi => hc i (List.mem_filter.mp hi).1) a ha hf
  have hconsistent := hlife.consistent
  obtain ⟨c, hstored, hamount⟩ := h.stored_of_deposits hi hdep fun j hj => (hunpaid j hj).1
  cases hrevealed : (w.storage.book id).revealed x with
  | none =>
    -- the deposit was not revealed, and can be taken back
    refine ⟨refundUnrevealedOutcome env w.storage id a c x, Or.inl ?_, ?_⟩
    · exact refundUnrevealed_eq_ok_iff.mpr
        ⟨a, c, ha, hstored, ⟨⟨hauth, hf, hreveal⟩, hrevealed⟩, rfl⟩
    · rw [← hamount]
      rfl
  | some e =>
    -- it was revealed, so the auction was not cancelled, and the bid is credited
    have hbidder := hconsistent.filed x e hrevealed
    subst hbidder
    have he : e ∈ a.revealedBids := (hconsistent.listed a ha e).mpr hrevealed
    have hover : a.Over := by
      rcases hs with hover | hcancelled
      · exact hover
      · rw [hdeposited.unrevealed hcancelled] at he
        cases he
    obtain ⟨hpos, c', hstored', hsame⟩ := hdeposited.covered e he
    obtain rfl := Option.some.inj (hstored.symm.trans hstored')
    have hcredit : w.storage.refund id e.bidder = e.amount :=
      hdeposited.credited hover e he hx fun j hj => (hunpaid j (List.mem_filter.mp hj).1).2
    refine ⟨withdrawRefundOutcome env w.storage id a e.bidder, Or.inr ?_, ?_⟩
    · exact withdrawRefund_eq_ok_iff.mpr ⟨a, ha, ⟨hauth, by rw [hcredit]; exact hpos⟩, rfl⟩
    · have hpaid : e.amount = amount := hsame.symm.trans hamount
      dsimp only [withdrawRefundOutcome, refundBid]
      rw [hcredit, hpaid]

/-- Two bids are deposited and revealed, and the higher one wins. -/
def Stage.lostBid (deposit revealed : I128) : List (Tx ℕ × Call ℕ) :=
  Stage.opening .sealedBid Stage.painting ++
    [(Stage.signed 2 1, .activateAuction 0),
      (Stage.signed 3 (.of 2), .commitBid 0 3 (Stage.commitment revealed 3) deposit),
      (Stage.signed 4 (.of 3), .commitBid 0 4 (Stage.commitment (.of 200) 4) (.of 200)),
      (Stage.signed 3 (.of 11), .revealBid 0 3 revealed (BytesN.replicate 32 0)),
      (Stage.signed 4 (.of 12), .revealBid 0 4 (.of 200) (BytesN.replicate 32 0)),
      (Stage.signed 2 (.of 30), .closeAuction 0)]

/-- The theorem at a lost bid of a hundred. -/
theorem depositReturned_lostBid : ∃ (tr : List (Invocation ℕ)) (w : World Stage.host),
    (w.storage.auctions 0).map (fun a => (a.status, a.highestBidder)) = some (.ended, some 4) ∧
      w.storage.refund 0 3 = .of 100 ∧ DepositReturned 0 tr w := by
  have hreplay : (replay Stage.start (Stage.lostBid (.of 100) (.of 100))).map (fun r =>
      ((r.2.storage.auctions 0).map (fun a => (a.status, a.highestBidder)),
        r.2.storage.refund 0 3, decide (∀ i ∈ r.1, i.KeepsDeposits))) =
      some (some (.ended, some 4), .of 100, true) := by decide +kernel
  obtain ⟨tr, w, hrun, hv⟩ := exists_run_of_replay Stage.world_refl rfl hreplay
  simp only [Prod.mk.injEq] at hv
  obtain ⟨hended, hrefund, hc⟩ := hv
  exact ⟨tr, w, hended, hrefund, hrun.depositReturned (of_decide_eq_true hc) 0⟩

/-- **Half of a deposit can be lost**: a deposit of a hundred, of which fifty is revealed,
comes back as fifty. -/
theorem exists_deposit_lost : ¬∀ (tr : List (Invocation ℕ)) (w : World Stage.host),
    Run Stage.host tr w → ∀ id, DepositReturned id tr w := by
  intro hclaim
  have hreplay : (replay Stage.start (Stage.lostBid (.of 100) (.of 50))).map (fun r =>
      ((r.2.storage.auctions 0).map (fun a => (a.format, a.status, a.highestBidder)),
        (r.2.storage.refund 0 3, decide (r.2.storage.revealed 0 3 = none)),
        r.1.any (fun i => i.call = .commitBid 0 3 (Stage.commitment (.of 50) 3) (.of 100)),
        r.1.all fun i => i.call ≠ .refundUnrevealed 0 3 ∧ i.call ≠ .withdrawRefund 0 3)) =
      some (some (.sealedBid, .ended, some 4), (.of 50, false), true, true) := by decide +kernel
  obtain ⟨tr, w, hrun, hv⟩ := exists_run_of_replay Stage.world_refl rfl hreplay
  simp only [Prod.mk.injEq] at hv
  obtain ⟨ha, ⟨hrefund, hrevealed⟩, hany, hall⟩ := hv
  obtain ⟨a, ha, hfields⟩ := Option.map_eq_some_iff.mp ha
  simp only [Prod.mk.injEq] at hfields
  obtain ⟨hf, hs, hbidder⟩ := hfields
  obtain ⟨i, hi, hcall⟩ := List.any_eq_true.mp hany
  have hunpaid : ∀ j ∈ tr, ¬j.TakesBack 0 3 ∧ ¬j.Withdraws 0 3 := fun j hj => by
    have hboth : j.call ≠ .refundUnrevealed 0 3 ∧ j.call ≠ .withdrawRefund 0 3 :=
      of_decide_eq_true (List.all_eq_true.mp hall j hj)
    exact hboth
  obtain ⟨o, hret, hcalls⟩ := hclaim tr w hrun 0 a ha hf (Or.inl (Or.inl hs)) i hi 3 (.of 100)
    ⟨_, of_decide_eq_true hcall⟩ (by rw [hbidder]; decide) hunpaid
    (Stage.host.env w.tokens (Stage.signed 3 U64.max)) rfl a.revealDeadline.le_hi a.endTime.le_hi
  rcases hret with hret | hret
  · obtain ⟨a', c, -, -, ⟨-, hnone⟩, -⟩ := refundUnrevealed_eq_ok_iff.mp hret
    exact of_decide_eq_false hrevealed hnone
  · obtain ⟨a', -, -, rfl⟩ := withdrawRefund_eq_ok_iff.mp hret
    dsimp only [withdrawRefundOutcome, refundBid] at hcalls
    rw [hrefund] at hcalls
    injection hcalls with hcall
    injection hcall with _ _ _ hcon
    exact absurd hcon (by decide)

end UrithiBidz
