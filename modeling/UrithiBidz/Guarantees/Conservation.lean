import UrithiBidz.Ledger.Replay

/-!
# Nothing is lost in an English auction

What a bidder has in an English auction is what may be claimed as a refund and, for the
highest bidder, the standing bid: the *stake*. Every bid adds its amount to the stake of the
bidder, a withdrawal takes the refund out of it, and being outbid moves the standing bid to
the refund without changing the sum. So the stake is at all times what the bidder has paid
in, less what was paid out (`UrithiBidz.Run.stake_eq`).

The one thing that could break this is the addition that credits the refund, which saturates.
It does so only on a sum beyond the range of the type, and a stake never exceeds what was
paid in; hence the bound on the sum of the bids.
-/

namespace UrithiBidz

variable {Address : Type} [DecidableEq Address]

/-! ### Stakes -/

/-- The standing bid, if it is the bidder's. -/
def Book.standing (b : Book Address) (x : Address) : ℤ :=
  match b.auction with
  | some a => if a.highestBidder = some x then a.highestBid.val else 0
  | none => 0

/-- **What a bidder has in an English auction.** -/
def Book.stake (b : Book Address) (x : Address) : ℤ := (b.refund x).val + b.standing x

theorem Book.standing_of_some {b : Book Address} {a : Auction Address} (ha : b.auction = some a)
    (x : Address) :
    b.standing x = if a.highestBidder = some x then a.highestBid.val else 0 := by
  rw [standing, ha]

theorem Book.stake_congr {b b' : Book Address} {a a' : Auction Address}
    (ha : b.auction = some a) (ha' : b'.auction = some a') (hr : b'.refunds = b.refunds)
    (hbidder : a'.highestBidder = a.highestBidder) (hbid : a'.highestBid = a.highestBid)
    (x : Address) : b'.stake x = b.stake x := by
  rw [stake, stake, standing_of_some ha, standing_of_some ha', refund, refund, hr, hbidder, hbid]

/-! ### Paying in and paying out -/

/-- What the transfers of a call moved from one address to another. -/
def Invocation.moved (i : Invocation Address) (src dst : Address) : ℤ :=
  (i.outcome.calls.map (TokenCall.moved src dst)).sum

/-- What a bidder locked with a call, if it is a bid of the bidder in the auction. -/
def Invocation.lockedBy (id : U64) (x : Address) (i : Invocation Address) : ℤ :=
  match i.call with
  | .placeBid id' bidder _ =>
    if id' = id ∧ bidder = x then i.moved x i.env.currentContractAddress else 0
  | _ => 0

/-- What a call paid a bidder, if it is a withdrawal of the bidder's refund in the auction. -/
def Invocation.paidTo (id : U64) (x : Address) (i : Invocation Address) : ℤ :=
  match i.call with
  | .withdrawRefund id' bidder =>
    if id' = id ∧ bidder = x then i.moved i.env.currentContractAddress x else 0
  | _ => 0

/-- What a bidder locked in an auction with all the bids of a run. -/
def totalLocked (id : U64) (x : Address) (tr : List (Invocation Address)) : ℤ :=
  (tr.map (Invocation.lockedBy id x)).sum

/-- What a bidder was paid for an auction by all the withdrawals of a run. -/
def totalPaid (id : U64) (x : Address) (tr : List (Invocation Address)) : ℤ :=
  (tr.map (Invocation.paidTo id x)).sum

theorem totalLocked_append (id : U64) (x : Address) (tr tr' : List (Invocation Address)) :
    totalLocked id x (tr ++ tr') = totalLocked id x tr + totalLocked id x tr' := by
  rw [totalLocked, List.map_append, List.sum_append]
  rfl

theorem totalPaid_append (id : U64) (x : Address) (tr tr' : List (Invocation Address)) :
    totalPaid id x (tr ++ tr') = totalPaid id x tr + totalPaid id x tr' := by
  rw [totalPaid, List.map_append, List.sum_append]
  rfl

theorem totalLocked_singleton (id : U64) (x : Address) (i : Invocation Address) :
    totalLocked id x [i] = i.lockedBy id x := by
  simp [totalLocked]

theorem totalPaid_singleton (id : U64) (x : Address) (i : Invocation Address) :
    totalPaid id x [i] = i.paidTo id x := by
  simp [totalPaid]

theorem Invocation.lockedBy_placeBid {env : Env Address} {s s' : Storage Address} {id : U64}
    {bidder token : Address} {amount : I128} {events : List (Event Address)} {value : Value}
    (x : Address) : (⟨env, s, .placeBid id bidder amount,
      ⟨s', events, [lockBid env token bidder amount], value⟩⟩ : Invocation Address).lockedBy id x =
        if bidder = x then amount.val else 0 := by
  by_cases hx : bidder = x
  · subst hx
    simp [lockedBy, moved, lockBid, TokenCall.moved]
  · simp [lockedBy, hx]

theorem Invocation.paidTo_withdrawRefund {env : Env Address} {s s' : Storage Address} {id : U64}
    {bidder token : Address} {amount : I128} {events : List (Event Address)} {value : Value}
    (x : Address) : (⟨env, s, .withdrawRefund id bidder,
      ⟨s', events, [refundBid env token bidder amount], value⟩⟩ : Invocation Address).paidTo id x =
        if bidder = x then amount.val else 0 := by
  by_cases hx : bidder = x
  · subst hx
    simp [paidTo, moved, refundBid, TokenCall.moved]
  · simp [paidTo, hx]

/-- A call that is not about the auction locks and pays nothing in it. -/
theorem Invocation.eq_zero_of_not_about {id : U64} {i : Invocation Address}
    (h : ¬i.About id) (x : Address) : i.lockedBy id x = 0 ∧ i.paidTo id x = 0 := by
  obtain ⟨env, s, c, o⟩ := i
  cases c with
  | placeBid id' bidder amount =>
    have hne : id' ≠ id := fun hcon => h (congrArg some hcon)
    exact ⟨by simp [lockedBy, hne], rfl⟩
  | withdrawRefund id' bidder =>
    have hne : id' ≠ id := fun hcon => h (congrArg some hcon)
    exact ⟨rfl, by simp [paidTo, hne]⟩
  | _ => exact ⟨rfl, rfl⟩

/-- So the sums of a run are the sums of the life of the auction. -/
theorem total_filter (id : U64) (x : Address) (tr : List (Invocation Address)) :
    totalLocked id x (tr.filter (·.About id)) = totalLocked id x tr ∧
      totalPaid id x (tr.filter (·.About id)) = totalPaid id x tr := by
  induction tr with
  | nil => exact ⟨rfl, rfl⟩
  | cons i tr ih =>
    obtain ⟨hlocked, hpaid⟩ := ih
    have hsplit : i :: tr = [i] ++ tr := rfl
    by_cases hi : i.About id
    · rw [List.filter_cons_of_pos (by simpa using hi), hsplit, ← List.singleton_append,
        totalLocked_append, totalLocked_append, totalPaid_append, totalPaid_append, hlocked,
        hpaid]
      exact ⟨rfl, rfl⟩
    · obtain ⟨hzero, hzero'⟩ := Invocation.eq_zero_of_not_about hi x
      rw [List.filter_cons_of_neg (by simpa using hi), hsplit, totalLocked_append,
        totalPaid_append, totalLocked_singleton, totalPaid_singleton, hzero, hzero', zero_add,
        zero_add]
      exact ⟨hlocked, hpaid⟩

/-! ### What a step does to a stake -/

/-- Neither the standing bid nor a refund of an English auction is negative. -/
def Book.Solvent (b : Book Address) : Prop :=
  ∀ a, b.auction = some a → a.format = .english →
    0 ≤ a.highestBid.val ∧ ∀ x, 0 ≤ (b.refund x).val

omit [DecidableEq Address] in
theorem AcceptsBid.amount_pos {env : Env Address} {a : Auction Address} {bidder : Address}
    {amount : I128} (ok : AcceptsBid env a bidder amount) (hinc : 0 < a.minIncrement.val)
    (hbid : 0 ≤ a.highestBid.val) : 0 < amount.val := by
  have hle := Ranged.le_iff.mp ok.increment
  rw [Ranged.val_saturatingAdd] at hle
  omega

variable {env : Env Address} {id : U64} {c : Call Address} {b b' : Book Address}
  {calls : List (TokenCall Address)} {me : Address}

/-- Every step keeps the amounts from being negative. -/
theorem BookStep.solvent (h : BookStep env id c b b' calls) (hblank : b.BlankPages)
    (hterms : ∀ a, b.auction = some a → a.ValidTerms me) (hb : b.Solvent) : b'.Solvent := by
  intro a' ha' hf
  rcases ha : b.auction with _ | a
  · -- the auction has just been created, on blank pages
    obtain ⟨params, config, -, -, rfl, -⟩ := h.of_none ha
    rw [← Option.some.inj ha', hblank ha]
    exact ⟨le_refl _, fun _ => le_refl _⟩
  have hf₀ : a.format = .english := (h.sameTerms_of_some ha ha').format.symm.trans hf
  obtain ⟨hbid, hrefund⟩ := hb a ha hf₀
  cases h.english ha hf₀ with
  | quiet hq =>
    obtain rfl := Option.some.inj ha'
    rw [hq.sameBids.highestBid]
    exact ⟨hbid, hrefund⟩
  | firstBid ok =>
    rw [← Option.some.inj ha']
    exact ⟨(ok.amount_pos ((hterms a ha).english hf₀) hbid).le, hrefund⟩
  | @outbid _ bidder previous amount ok =>
    rw [← Option.some.inj ha']
    refine ⟨(ok.amount_pos ((hterms a ha).english hf₀) hbid).le, fun x => ?_⟩
    change 0 ≤ ((b.credit previous a.highestBid).refund x).val
    by_cases hx : x = previous
    · -- whoever is displaced is credited a bid, which is not negative
      subst hx
      have hold := hrefund x
      rw [Book.refund_credit_self, Ranged.val_saturatingAdd]
      omega
    · rw [Book.refund_credit_of_ne b hx]
      exact hrefund x
  | @withdraw _ bidder =>
    obtain rfl := Option.some.inj (ha.symm.trans ha')
    refine ⟨hbid, fun x => ?_⟩
    by_cases hx : x = bidder
    · subst hx
      simp [Book.refund]
    · have hold := hrefund x
      simpa [Book.refund, hx] using hold

/-- **A step changes a stake by what it locks and pays.** -/
theorem BookStep.stake_step (h : BookStep env id c b b' calls) {a' : Auction Address}
    (ha' : b'.auction = some a') (hf : a'.format = .english) (hblank : b.BlankPages)
    (hb : b.Solvent) {x : Address} (hmax : b.stake x ≤ I128.max.val)
    {s s' : Storage Address} {events : List (Event Address)} {value : Value}
    {i : Invocation Address} (hi : i = ⟨env, s, c, ⟨s', events, calls, value⟩⟩) :
    b'.stake x = b.stake x + i.lockedBy id x - i.paidTo id x := by
  -- a call that is neither a bid nor a withdrawal locks and pays nothing
  have hkeep : i.lockedBy id x = 0 → i.paidTo id x = 0 → b'.stake x = b.stake x →
      b'.stake x = b.stake x + i.lockedBy id x - i.paidTo id x := by
    intro h₁ h₂ h₃
    omega
  subst hi
  rcases ha : b.auction with _ | a
  · obtain ⟨params, config, rfl, -, rfl, -⟩ := h.of_none ha
    refine hkeep rfl rfl ?_
    rw [hblank ha]
    rfl
  have hf₀ : a.format = .english := (h.sameTerms_of_some ha ha').format.symm.trans hf
  cases h.english ha hf₀ with
  | @quiet _ _ a₂ _ hq =>
    have hauction : (b.setAuction a₂).auction = some a₂ := rfl
    have hstake := Book.stake_congr ha hauction rfl hq.sameBids.highestBidder
      hq.sameBids.highestBid x
    cases hq <;> exact hkeep rfl rfl hstake
  | @firstBid _ bidder amount ok hn =>
    have hpaid : (⟨env, s, .placeBid id bidder amount, ⟨s', events,
      [lockBid env a.paymentToken bidder amount], value⟩⟩ : Invocation Address).paidTo id x = 0 :=
      rfl
    have hold : b.standing x = 0 := by
      rw [Book.standing_of_some ha, hn, if_neg (by simp)]
    have hnew : (b.setAuction (a.withBid env.timestamp bidder amount)).standing x =
        if bidder = x then amount.val else 0 := by
      rw [Book.standing_of_some rfl]
      simp [Auction.withBid]
    rw [Invocation.lockedBy_placeBid, hpaid, Book.stake, Book.stake, hold, hnew]
    change (b.refund x).val + _ = _
    omega
  | @outbid _ bidder previous amount ok hp =>
    have hpaid : (⟨env, s, .placeBid id bidder amount, ⟨s', events,
      [lockBid env a.paymentToken bidder amount], value⟩⟩ : Invocation Address).paidTo id x = 0 :=
      rfl
    have hold : b.standing x = if previous = x then a.highestBid.val else 0 := by
      rw [Book.standing_of_some ha, hp]
      simp
    have hnew : ((b.credit previous a.highestBid).setAuction
        (a.withBid env.timestamp bidder amount)).standing x =
          if bidder = x then amount.val else 0 := by
      rw [Book.standing_of_some rfl]
      simp [Auction.withBid]
    -- the credit moves the standing bid to the refund of whoever made it
    have hcredit : ((b.credit previous a.highestBid).refund x).val =
        (b.refund x).val + b.standing x := by
      rw [hold]
      by_cases hx : previous = x
      · subst hx
        obtain ⟨hbid, hrefund⟩ := hb a ha hf₀
        have hpos := hrefund previous
        have hsum : (b.refund previous).val + a.highestBid.val ≤ I128.max.val := by
          rw [Book.stake, hold, if_pos rfl] at hmax
          exact hmax
        rw [Book.refund_credit_self, if_pos rfl, Ranged.val_saturatingAdd_of_le (by omega) hsum]
      · rw [Book.refund_credit_of_ne b (Ne.symm hx), if_neg hx, add_zero]
    rw [Invocation.lockedBy_placeBid, hpaid, Book.stake, Book.stake, hnew]
    change ((b.credit previous a.highestBid).refund x).val + _ = _
    rw [hcredit]
    omega
  | @withdraw _ bidder =>
    have hlocked : (⟨env, s, .withdrawRefund id bidder, ⟨s', events,
      [refundBid env a.paymentToken bidder (b.refund bidder)], value⟩⟩ :
        Invocation Address).lockedBy id x = 0 := rfl
    have hstanding : (b.setRefund bidder none).standing x = b.standing x := rfl
    rw [Invocation.paidTo_withdrawRefund, hlocked, Book.stake, Book.stake, hstanding]
    by_cases hx : bidder = x
    · subst hx
      simp [Book.refund]
    · simp [Book.refund, hx, Ne.symm hx]

/-- A step locks and pays amounts that are not negative. -/
theorem BookStep.locked_paid_nonneg (h : BookStep env id c b b' calls)
    (hterms : ∀ a, b.auction = some a → a.ValidTerms me) (hb : b.Solvent) (x : Address)
    {s s' : Storage Address} {events : List (Event Address)} {value : Value}
    {i : Invocation Address} (hi : i = ⟨env, s, c, ⟨s', events, calls, value⟩⟩) :
    0 ≤ i.lockedBy id x ∧ 0 ≤ i.paidTo id x := by
  subst hi
  cases h with
  | @firstBid _ a bidder amount ha ok =>
    have hpos := ok.amount_pos ((hterms a ha).english ok.format) (hb a ha ok.format).1
    refine ⟨?_, le_refl _⟩
    rw [Invocation.lockedBy_placeBid]
    split <;> omega
  | @outbid _ a bidder previous amount ha ok =>
    have hpos := ok.amount_pos ((hterms a ha).english ok.format) (hb a ha ok.format).1
    refine ⟨?_, le_refl _⟩
    rw [Invocation.lockedBy_placeBid]
    split <;> omega
  | @withdraw _ a bidder ha _ hr =>
    have hpos : 0 < (b.refund bidder).val := hr
    refine ⟨le_refl _, ?_⟩
    rw [Invocation.paidTo_withdrawRefund]
    split <;> omega
  | quiet ha hq => cases hq <;> exact ⟨le_refl _, le_refl _⟩
  | _ => exact ⟨le_refl _, le_refl _⟩

/-! ### Along a run -/

/-- The auction is an English one, if it exists. -/
def Book.English (b : Book Address) : Prop := ∀ a, b.auction = some a → a.format = .english

theorem BookStep.english_of_english (h : BookStep env id c b b' calls) (hb : b'.English) :
    b.English := by
  intro a ha
  obtain ⟨a', ha', hterms⟩ := h.sameTerms ha
  rw [← hterms.format]
  exact hb a' ha'

namespace Life

variable {tr : List (Invocation Address)} {p : Book Address × U64}

theorem solvent (h : Life me id tr p) : p.1.Solvent := by
  refine induct (P := fun _ b _ => b.Solvent) (fun _ _ ha => by cases ha) ?_ h
  intro tr b now env s c s' events calls value b' hl ih hstep _ _ _ _ _ _
  exact hstep.solvent hl.blankPages hl.validTerms ih

/-- **The stake of a bidder in an English auction is what the bidder paid in, less what was
paid out.** -/
theorem stake_of_english (h : Life me id tr p) (hf : p.1.English) (x : Address) :
    0 ≤ totalPaid id x tr ∧ (totalLocked id x tr ≤ I128.max.val →
      p.1.stake x = totalLocked id x tr - totalPaid id x tr) := by
  refine induct (P := fun tr b _ => b.English → 0 ≤ totalPaid id x tr ∧
    (totalLocked id x tr ≤ I128.max.val →
      b.stake x = totalLocked id x tr - totalPaid id x tr)) ?_ ?_ h hf
  · intro now _
    exact ⟨le_refl _, fun _ => rfl⟩
  · intro tr b now env s c s' events calls value b' hl ih hstep _ _ _ _ _ _ hf'
    obtain ⟨a', ha'⟩ := Option.isSome_iff_exists.mp hstep.isSome
    obtain ⟨hpaid, hstake⟩ := ih (hstep.english_of_english hf')
    generalize hi : (⟨env, s, c, ⟨s', events, calls, value⟩⟩ : Invocation Address) = i
    obtain ⟨hlock, hpay⟩ := hstep.locked_paid_nonneg hl.validTerms hl.solvent x hi.symm
    rw [totalLocked_append, totalPaid_append, totalLocked_singleton, totalPaid_singleton]
    refine ⟨by omega, fun hmax => ?_⟩
    -- the bids so far are within the bound, so the stake is, and no credit saturates
    have hbefore := hstake (by omega)
    have hrange : b.stake x ≤ I128.max.val := by omega
    have hafter := hstep.stake_step ha' (hf' a' ha') hl.blankPages hl.solvent hrange hi.symm
    omega

end Life

variable {H : Host Address} {tr : List (Invocation Address)} {w : World H}

/-- **Nothing is lost in an English auction.** In every run, what a bidder locked with the
bids on an English auction, less what the withdrawals paid, is the claimable refund and, for
the highest bidder, the standing bid, as long as the bids of the bidder together are in the
range of the type. -/
theorem Run.stake_eq (h : Run H tr w) {id : U64} {a : Auction Address}
    (ha : w.storage.auctions id = some a) (hf : a.format = .english) (x : Address)
    (hmax : totalLocked id x tr ≤ I128.max.val) :
    totalLocked id x tr - totalPaid id x tr =
      (w.storage.refund id x).val + if a.highestBidder = some x then a.highestBid.val else 0 := by
  obtain ⟨now, -, hlife⟩ := h.life id
  obtain ⟨hlocked, hpaid⟩ := total_filter id x tr
  have henglish : (w.storage.book id).English := by
    intro a' ha'
    obtain rfl := Option.some.inj (ha.symm.trans ha')
    exact hf
  have hstake := (hlife.stake_of_english henglish x).2 (by rw [hlocked]; exact hmax)
  rw [hlocked, hpaid] at hstake
  rw [← hstake, Book.stake, Book.standing_of_some ha]
  rfl

/-- Account 3 bids, is outbid, withdraws, outbids twice and is ahead with the last bid. -/
def Stage.bidding : List (Tx ℕ × Call ℕ) :=
  Stage.opening .english Stage.painting ++
    [(Stage.signed 2 1, .activateAuction 0),
      (Stage.signed 3 (.of 2), .placeBid 0 3 (.of 100)),
      (Stage.signed 4 (.of 3), .placeBid 0 4 (.of 110)),
      (Stage.signed 3 (.of 4), .withdrawRefund 0 3),
      (Stage.signed 3 (.of 5), .placeBid 0 3 (.of 120)),
      (Stage.signed 3 (.of 6), .placeBid 0 3 (.of 130))]

/-- The theorem at these bids. -/
theorem stake_eq_bidding : ∃ (tr : List (Invocation ℕ)) (w : World Stage.host) (a : Auction ℕ),
    (totalLocked 0 3 tr = 350 ∧ a.highestBidder = some 3) ∧
      totalLocked 0 3 tr - totalPaid 0 3 tr =
        (w.storage.refund 0 3).val + if a.highestBidder = some 3 then a.highestBid.val else 0 := by
  have hreplay : (replay Stage.start Stage.bidding).map (fun r =>
      (totalLocked 0 3 r.1, (r.2.storage.auctions 0).map fun a =>
        (a.format, a.highestBidder))) = some (350, some (.english, some 3)) := by decide +kernel
  obtain ⟨tr, w, hrun, hv⟩ := exists_run_of_replay Stage.world_refl rfl hreplay
  obtain ⟨hlocked, ha⟩ := Prod.mk.inj hv
  obtain ⟨a, ha, hfields⟩ := Option.map_eq_some_iff.mp ha
  obtain ⟨hf, hbidder⟩ := Prod.mk.inj hfields
  exact ⟨tr, w, a, ⟨hlocked, hbidder⟩, hrun.stake_eq ha hf 3 (by rw [hlocked]; decide)⟩

end UrithiBidz
