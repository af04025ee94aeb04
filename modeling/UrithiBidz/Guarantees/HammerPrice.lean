import UrithiBidz.Ledger.Replay
import UrithiBidz.Ledger.Transfers

/-!
# The hammer price

A sale is settled by paying out the highest bid: a royalty to the original creator, a fee to
the platform, and what is left to the seller. Both rates are fixed when the auction is created
and checked to be at most the whole together, whatever the settings of the platform become
later (`UrithiBidz.Life.validTerms`). So both shares, rounded down, fit into the price, the
rest is not negative, and nothing is lost to rounding.

`UrithiBidz.PaidInFull` says what is paid: the shares, as transfers of positive amounts out of
the escrow, the price in total, and to every address the sum of the shares that are due to it,
for one address may be two of the parties or all three. On an honest token this is what happens
to the balances. `UrithiBidz.Run.paidInFull` is the theorem about settlements.
-/

namespace UrithiBidz

variable {Address : Type} [DecidableEq Address]

/-! ### The shares -/

namespace Auction

/-- The share of the original creator, rounded down. -/
def royalty (a : Auction Address) : ℤ := a.highestBid.val * a.royaltyBps.val / 10000

/-- The share of the platform, rounded down. -/
def platformFee (a : Auction Address) : ℤ := a.highestBid.val * a.platformFeeBps.val / 10000

/-- What is left to the seller. -/
def proceeds (a : Auction Address) : ℤ := a.highestBid.val - a.royalty - a.platformFee

/-- **What is due to an address**, which may be more than one of the parties. -/
def due (a : Auction Address) (platformWallet x : Address) : ℤ :=
  (if a.seller = x then a.proceeds else 0) + (if a.originalCreator = x then a.royalty else 0) +
    if platformWallet = x then a.platformFee else 0

variable {a : Auction Address}

omit [DecidableEq Address] in
/-- **No share is negative**, if the rates together are at most the whole. -/
theorem shares_nonneg (hbid : 0 ≤ a.highestBid.val)
    (hfees : a.royaltyBps.val + a.platformFeeBps.val ≤ 10000) :
    0 ≤ a.proceeds ∧ 0 ≤ a.royalty ∧ 0 ≤ a.platformFee := by
  have hr := mul_nonneg hbid a.royaltyBps.lo_le
  have hf := mul_nonneg hbid a.platformFeeBps.lo_le
  have hsum := mul_le_mul_of_nonneg_left hfees hbid
  rw [mul_add] at hsum
  unfold proceeds royalty platformFee
  omega

omit [DecidableEq Address] in
/-- **The split of the price is the shares.** -/
theorem shares_of_calculateSplit {b : ProceedsBreakdown} (hbid : 0 ≤ a.highestBid.val)
    (h : calculateSplit a.highestBid a.royaltyBps a.platformFeeBps = .ok b) :
    b.sellerAmount.val = a.proceeds ∧ b.royaltyAmount.val = a.royalty ∧
      b.platformFeeAmount.val = a.platformFee := by
  obtain ⟨hroyalty, hfee, hseller⟩ := calculateSplit_eq_ok h
  rw [Int.tdiv_eq_ediv_of_nonneg (mul_nonneg hbid a.royaltyBps.lo_le)] at hroyalty
  rw [Int.tdiv_eq_ediv_of_nonneg (mul_nonneg hbid a.platformFeeBps.lo_le)] at hfee
  refine ⟨?_, hroyalty, hfee⟩
  rw [hseller, hroyalty, hfee]
  rfl

end Auction

/-! ### The payments -/

/-- What a call is meant to take from an address, in any token, for whomever. -/
def TokenCall.sent (src : Address) : TokenCall Address → ℤ
  | .transfer _ s _ amount => if s = src then amount.val else 0
  | .approve .. => 0

section Payments

variable {env : Env Address} {token recipient : Address} {amount : I128}

theorem sum_moved_payIfPositive (hpos : 0 ≤ amount.val) (x : Address) :
    ((payIfPositive env token recipient amount).map
      (TokenCall.moved env.currentContractAddress x)).sum =
        if recipient = x then amount.val else 0 := by
  unfold payIfPositive
  split
  · simp [TokenCall.moved]
  · next hskip =>
    -- a share that is skipped is zero
    have hzero : amount.val = 0 := le_antisymm (Ranged.not_lt_iff.mp hskip) hpos
    simp [hzero]

theorem sum_sent_payIfPositive (hpos : 0 ≤ amount.val) :
    ((payIfPositive env token recipient amount).map
      (TokenCall.sent env.currentContractAddress)).sum = amount.val := by
  unfold payIfPositive
  split
  · simp [TokenCall.sent]
  · next hskip =>
    have hzero : amount.val = 0 := le_antisymm (Ranged.not_lt_iff.mp hskip) hpos
    simp [hzero]

/-- What payments bring an address is what they move to it, less what they take from it. -/
theorem sum_net_of_payments {contract : Address} {calls : List (TokenCall Address)}
    (hcalls : ∀ call ∈ calls, ∃ dst amount, call = .transfer token contract dst amount)
    (x : Address) : (calls.map (TokenCall.net token x)).sum =
      (calls.map (TokenCall.moved contract x)).sum -
        if contract = x then (calls.map (TokenCall.sent contract)).sum else 0 := by
  induction calls with
  | nil => simp
  | cons call calls ih =>
    obtain ⟨⟨dst, amount, rfl⟩, hrest⟩ := List.forall_mem_cons.mp hcalls
    simp only [List.map_cons, List.sum_cons, ih hrest, TokenCall.net, TokenCall.moved,
      TokenCall.sent, if_true, true_and]
    by_cases hx : contract = x
    · simp only [if_pos hx]
      omega
    · simp only [if_neg hx]
      omega

end Payments

/-! ### Settlements -/

/-- **The hammer price is paid in full**: the payments of a settlement, and the tokens before
and after them. -/
structure PaidInFull (H : Host Address) (a : Auction Address) (platformWallet : Address)
    (payments : List (TokenCall Address)) (t t' : H.Tokens) : Prop where
  /-- No share is negative. -/
  shares_nonneg : 0 ≤ a.proceeds ∧ 0 ≤ a.royalty ∧ 0 ≤ a.platformFee
  /-- The shares add up to the price. -/
  shares_sum : a.proceeds + a.royalty + a.platformFee = a.highestBid.val
  /-- Every payment is a transfer of a positive amount of the payment token out of the escrow. -/
  transfers : ∀ call ∈ payments, ∃ recipient amount,
    call = .transfer a.paymentToken H.contract recipient amount ∧ 0 < amount.val
  /-- In total, the price is paid. -/
  total : (payments.map (TokenCall.sent H.contract)).sum = a.highestBid.val
  /-- Everybody is paid what is due. -/
  paid : ∀ x, (payments.map (TokenCall.moved H.contract x)).sum = a.due platformWallet x
  /-- If the token is honest, this is what happens to the balances. -/
  balances : H.FullSep41 a.paymentToken → ∀ x, H.balance t' a.paymentToken x =
    H.balance t a.paymentToken x + a.due platformWallet x -
      if H.contract = x then a.highestBid.val else 0

/-- The payments of a split are the shares. -/
theorem paidInFull_of_split {H : Host Address} {a : Auction Address} {wallet : Address}
    {b : ProceedsBreakdown} {env : Env Address} (henv : env.currentContractAddress = H.contract)
    (hbid : 0 ≤ a.highestBid.val) (hterms : a.ValidTerms H.contract)
    (hsplit : calculateSplit a.highestBid a.royaltyBps a.platformFeeBps = .ok b)
    {auth : Address → Bool} {t t' : H.Tokens}
    (hpay : H.execAll auth t (distributeProceeds env a.paymentToken a.seller a.originalCreator
      wallet b) = some t') :
    PaidInFull H a wallet (distributeProceeds env a.paymentToken a.seller a.originalCreator
      wallet b) t t' := by
  obtain ⟨hproceeds, hroyalty, hfee⟩ := Auction.shares_nonneg hbid hterms.fees
  obtain ⟨hseller, hcreator, hplatform⟩ := Auction.shares_of_calculateSplit hbid hsplit
  rw [← hseller] at hproceeds
  rw [← hcreator] at hroyalty
  rw [← hplatform] at hfee
  have hsum : a.proceeds + a.royalty + a.platformFee = a.highestBid.val := by
    unfold Auction.proceeds
    omega
  have htransfers : ∀ call ∈ distributeProceeds env a.paymentToken a.seller a.originalCreator
      wallet b, ∃ recipient amount,
        call = .transfer a.paymentToken H.contract recipient amount ∧ 0 < amount.val := by
    intro call hcall
    obtain ⟨recipient, amount, heq, hpos, -⟩ := mem_distributeProceeds hcall
    exact ⟨recipient, amount, henv ▸ heq, hpos⟩
  -- what leaves the escrow is the bid
  have htotal : ((distributeProceeds env a.paymentToken a.seller a.originalCreator wallet b).map
      (TokenCall.sent H.contract)).sum = a.highestBid.val := by
    simp only [distributeProceeds, List.map_append, List.sum_append, ← henv,
      sum_sent_payIfPositive hproceeds, sum_sent_payIfPositive hroyalty,
      sum_sent_payIfPositive hfee, hseller, hcreator, hplatform, hsum]
  -- and everybody gets what is due, also who plays two parts
  have hpaid : ∀ x, ((distributeProceeds env a.paymentToken a.seller a.originalCreator wallet
      b).map (TokenCall.moved H.contract x)).sum = a.due wallet x := by
    intro x
    simp only [distributeProceeds, List.map_append, List.sum_append, ← henv,
      sum_moved_payIfPositive hproceeds, sum_moved_payIfPositive hroyalty,
      sum_moved_payIfPositive hfee, hseller, hcreator, hplatform]
    rfl
  refine ⟨Auction.shares_nonneg hbid hterms.fees, hsum, htransfers, htotal, hpaid, ?_⟩
  intro htoken x
  have hbalance := htoken.balance_execAll (fun call hcall => ?_) hpay x
  · rw [hbalance, sum_net_of_payments (fun call hcall => ?_), hpaid, htotal]
    · omega
    · obtain ⟨recipient, amount, heq, -⟩ := htransfers call hcall
      exact ⟨recipient, amount, heq⟩
  · obtain ⟨recipient, amount, heq, -⟩ := htransfers call hcall
    exact ⟨H.contract, recipient, amount, heq⟩

variable {H : Host Address} {tr : List (Invocation Address)} {w : World H}

/-- **The hammer price is conserved.** Whenever an auction is settled whose highest bid is not
negative, the item is moved first and the price is then paid in full; the auction is settled
and no other record changes. -/
theorem Run.paidInFull (h : Run H tr w) {id : U64} {a : Auction Address} {o : Outcome Address}
    {tx : Tx Address} {t t' : H.Tokens} (ha : w.storage.auctions id = some a)
    (hbid : 0 ≤ a.highestBid.val)
    (hret : invoke (H.env t tx) w.storage (.settleAuction id) = .ok o)
    (hcarried : H.execAll tx.auth t o.calls = some t') :
    (∃ winner platformWallet itemCalls payments t₁, a.highestBidder = some winner ∧
      w.storage.platformWallet = some platformWallet ∧ o.calls = itemCalls ++ payments ∧
      (itemCalls = [] ∨ ∃ item, a.item = .digital item ∧
        itemCalls = [.transfer item.nftContract a.seller winner (I128.ofU64 item.tokenId)]) ∧
      H.execAll tx.auth t itemCalls = some t₁ ∧ H.execAll tx.auth t₁ payments = some t' ∧
      PaidInFull H a platformWallet payments t₁ t') ∧
    o.storage.auctions id = some { a with status := .settled } ∧
    ∀ other, other ≠ id → o.storage.auctions other = w.storage.auctions other := by
  obtain ⟨now, -, hlife⟩ := h.life id
  have hterms := hlife.validTerms a ha
  obtain ⟨a', ha', -, winner, itemCalls, wallet, b, hwinner, hitem, hwallet, hsplit, rfl⟩ :=
    settleAuction_eq_ok_iff.mp hret
  obtain rfl := Option.some.inj (ha.symm.trans ha')
  obtain ⟨t₁, hitems, hpay⟩ := Host.execAll_append.mp hcarried
  refine ⟨⟨winner, wallet, itemCalls, _, t₁, hwinner, hwallet, rfl, transferItem_eq_ok hitem,
    hitems, hpay, paidInFull_of_split rfl hbid hterms hsplit hpay⟩, ?_, ?_⟩
  · exact congrArg Book.auction (Storage.book_setAuction_self w.storage id _)
  · intro other hother
    exact congrArg Book.auction (Storage.book_setAuction_of_ne w.storage hother _)

/-- A physical item is attested, sold to account 3 for a hundred, and closed. -/
def Stage.hammered : List (Tx ℕ × Call ℕ) :=
  Stage.opening .english Stage.mask ++
    [(Stage.signed 5 1, .attestPhysicalItem 0 5 (BytesN.replicate 32 1)),
      (Stage.signed 3 (.of 2), .placeBid 0 3 (.of 100)),
      (Stage.signed 4 (.of 400), .closeAuction 0)]

/-- The theorem at a hundred: five for the creator, who is the seller, and two for the
platform, rounded down. -/
theorem paidInFull_hammered : ∃ (a : Auction ℕ) (wallet : ℕ) (payments : List (TokenCall ℕ))
    (t t' : Stage.host.Tokens), PaidInFull Stage.host a wallet payments t t' ∧
      a.due wallet 2 = 98 ∧ a.due wallet 1 = 2 := by
  have hreplay : (replay Stage.start Stage.hammered).map (fun r =>
      ((r.2.storage.auctions 0).map fun a => (a.highestBid.val, a.due 1 2, a.due 1 1),
        r.2.storage.platformWallet,
        (r.2.play (Stage.signed 4 (.of 401)) (.settleAuction 0)).isSome)) =
      some (some (100, 98, 2), some 1, true) := by decide +kernel
  obtain ⟨tr, w, hrun, hv⟩ := exists_run_of_replay Stage.world_refl rfl hreplay
  simp only [Prod.mk.injEq] at hv
  obtain ⟨ha, hwallet, hplay⟩ := hv
  obtain ⟨a, ha, hfields⟩ := Option.map_eq_some_iff.mp ha
  simp only [Prod.mk.injEq] at hfields
  obtain ⟨hbid, hseller, hplatform⟩ := hfields
  obtain ⟨⟨i, w'⟩, hplay⟩ := Option.isSome_iff_exists.mp hplay
  obtain ⟨-, o, t', hret, hcarried, -, -⟩ := World.eq_of_play hplay
  obtain ⟨⟨winner, wallet, items, payments, t₁, -, hwallet', -, -, -, -, hpaid⟩, -, -⟩ :=
    hrun.paidInFull ha (by rw [hbid]; decide) hret hcarried
  obtain rfl := Option.some.inj (hwallet.symm.trans hwallet')
  exact ⟨a, 1, payments, t₁, t', hpaid, hseller, hplatform⟩

end UrithiBidz
