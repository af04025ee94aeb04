import UrithiBidz.Book.Sealed
import UrithiBidz.Ledger.Host

/-!
# What an auction owes

An auction owes a bidder the claimable refund, the standing bid until it is settled, the
deposit of a commitment until it is revealed or taken back, and, in a sealed auction that
has not ended, the bid that was revealed. `UrithiBidz.Book.claim` adds these up for any way
to value an amount: as it is, which is what is owed, or with a negative amount counted as
nothing, which is what has to be *secured*. The second is never less than the first and
never negative, and it is what the steps of an auction account for.

`UrithiBidz.BookStep.secured` is the account: a step raises what is secured for at most one
bidder, by at most what its token calls bring in, and a step that pays somebody lowers it by
what it pays. Two steps break the account and are excluded: revealing more than was deposited
and reopening an auction that has been paid out.
-/

namespace UrithiBidz

variable {Address : Type} [DecidableEq Address]

/-! ### Claims -/

/-- The standing bid, if it is the bidder's and has not been paid out. -/
def Auction.lead (value : I128 → ℤ) (a : Auction Address) (x : Address) : ℤ :=
  if a.highestBidder = some x ∧ a.status ≠ .settled then value a.highestBid else 0

/-- The bids of a list that are the bidder's. -/
def revealedTotal (value : I128 → ℤ) (entries : List (SealedBidEntry Address)) (x : Address) : ℤ :=
  (entries.map fun e => if e.bidder = x then value e.amount else 0).sum

/-- The bids the bidder has revealed, in a sealed auction that has not ended. -/
def Auction.pledged (value : I128 → ℤ) (a : Auction Address) (x : Address) : ℤ :=
  if a.format = .sealedBid ∧ ¬a.Over then revealedTotal value a.revealedBids x else 0

/-- The deposit of the bidder, if it was neither revealed nor taken back. -/
def Book.deposit (value : I128 → ℤ) (b : Book Address) (x : Address) : ℤ :=
  match b.commitments x with
  | some c => if b.revealed x = none then value c.amount else 0
  | none => 0

/-- The claim of a bidder in a book whose record is `a`. -/
def Book.claim (value : I128 → ℤ) (b : Book Address) (a : Auction Address) (x : Address) : ℤ :=
  value (b.refund x) + a.lead value x + b.deposit value x + a.pledged value x

/-- **The claim of a bidder in a token**: what the auction owes, if it is paid in the token. -/
def Book.claimIn (value : I128 → ℤ) (token : Address) (b : Book Address) (x : Address) : ℤ :=
  match b.auction with
  | some a => if a.paymentToken = token then b.claim value a x else 0
  | none => 0

/-- An amount as it is. -/
def asIs (n : I128) : ℤ := n.val

/-- An amount, a negative one counted as nothing. -/
def positive (n : I128) : ℤ := max n.val 0

/-- **What is owed** to a bidder in a token. -/
def Book.owed (token : Address) (b : Book Address) (x : Address) : ℤ := b.claimIn asIs token x

/-- **What is secured** for a bidder in a token. -/
def Book.secured (token : Address) (b : Book Address) (x : Address) : ℤ :=
  b.claimIn positive token x

theorem revealedTotal_append (value : I128 → ℤ) (entries entries' : List (SealedBidEntry Address))
    (x : Address) : revealedTotal value (entries ++ entries') x =
      revealedTotal value entries x + revealedTotal value entries' x := by
  rw [revealedTotal, List.map_append, List.sum_append]
  rfl

theorem revealedTotal_cons (value : I128 → ℤ) (e : SealedBidEntry Address)
    (entries : List (SealedBidEntry Address)) (x : Address) :
    revealedTotal value (e :: entries) x =
      (if e.bidder = x then value e.amount else 0) + revealedTotal value entries x := by
  rw [revealedTotal, List.map_cons, List.sum_cons]
  rfl

theorem positive_nonneg (n : I128) : 0 ≤ positive n := le_max_right _ _

theorem asIs_le_positive (n : I128) : asIs n ≤ positive n := le_max_left _ _

theorem revealedTotal_nonneg (entries : List (SealedBidEntry Address)) (x : Address) :
    0 ≤ revealedTotal positive entries x := by
  induction entries with
  | nil => exact le_refl _
  | cons e entries ih =>
    have hpos := positive_nonneg e.amount
    rw [revealedTotal_cons]
    split <;> omega

theorem revealedTotal_le (entries : List (SealedBidEntry Address)) (x : Address) :
    revealedTotal asIs entries x ≤ revealedTotal positive entries x := by
  induction entries with
  | nil => exact le_refl _
  | cons e entries ih =>
    have hle := asIs_le_positive e.amount
    rw [revealedTotal_cons, revealedTotal_cons]
    split <;> omega

theorem Auction.lead_nonneg (a : Auction Address) (x : Address) : 0 ≤ a.lead positive x := by
  unfold lead
  split
  · exact positive_nonneg _
  · exact le_refl _

theorem Auction.pledged_nonneg (a : Auction Address) (x : Address) :
    0 ≤ a.pledged positive x := by
  unfold pledged
  split
  · exact revealedTotal_nonneg _ _
  · exact le_refl _

omit [DecidableEq Address] in
theorem Book.deposit_nonneg (b : Book Address) (x : Address) : 0 ≤ b.deposit positive x := by
  unfold deposit
  split
  · split
    · exact positive_nonneg _
    · exact le_refl _
  · exact le_refl _

theorem Book.parts_le_claim (b : Book Address) (a : Auction Address) (x : Address) :
    positive (b.refund x) ≤ b.claim positive a x ∧ a.lead positive x ≤ b.claim positive a x ∧
      b.deposit positive x ≤ b.claim positive a x := by
  have h₁ := positive_nonneg (b.refund x)
  have h₂ := a.lead_nonneg x
  have h₃ := b.deposit_nonneg x
  have h₄ := a.pledged_nonneg x
  rw [claim]
  refine ⟨?_, ?_, ?_⟩ <;> omega

/-- **What is secured is never negative.** -/
theorem Book.secured_nonneg (token : Address) (b : Book Address) (x : Address) :
    0 ≤ b.secured token x := by
  unfold secured claimIn
  split
  · next a _ =>
    split
    · exact (positive_nonneg _).trans (b.parts_le_claim a x).1
    · exact le_refl _
  · exact le_refl _

theorem Book.secured_of_some {b : Book Address} {a : Auction Address} {token : Address}
    (ha : b.auction = some a) (ht : a.paymentToken = token) (x : Address) :
    b.secured token x = b.claim positive a x := by
  rw [secured, claimIn, ha]
  exact if_pos ht

theorem Book.secured_of_ne {b : Book Address} {a : Auction Address} {token : Address}
    (ha : b.auction = some a) (ht : a.paymentToken ≠ token) (x : Address) :
    b.secured token x = 0 := by
  rw [secured, claimIn, ha]
  exact if_neg ht

/-- **What is owed is secured.** -/
theorem Book.owed_le_secured (token : Address) (b : Book Address) (x : Address) :
    b.owed token x ≤ b.secured token x := by
  unfold owed secured claimIn
  split
  · next a _ =>
    split
    · -- part by part: an amount as it is, is at most what is positive of it
      have h₁ := asIs_le_positive (b.refund x)
      have h₂ : a.lead asIs x ≤ a.lead positive x := by
        unfold Auction.lead
        split
        · exact asIs_le_positive _
        · exact le_refl _
      have h₃ : b.deposit asIs x ≤ b.deposit positive x := by
        unfold deposit
        split
        · split
          · exact asIs_le_positive _
          · exact le_refl _
        · exact le_refl _
      have h₄ : a.pledged asIs x ≤ a.pledged positive x := by
        unfold Auction.pledged
        split
        · exact revealedTotal_le _ _
        · exact le_refl _
      rw [claim, claim]
      omega
    · exact le_refl _
  · exact le_refl _

/-! ### Credits -/

theorem positive_saturatingAdd_le (m n : I128) :
    positive (m.saturatingAdd n) ≤ positive m + positive n := by
  have h₁ := m.le_hi
  have h₂ := n.le_hi
  unfold positive
  rw [Ranged.val_saturatingAdd]
  omega

theorem Book.positive_refund_credit_le (b : Book Address) (y : Address) (amount : I128)
    (x : Address) : positive ((b.credit y amount).refund x) ≤
      positive (b.refund x) + if y = x then positive amount else 0 := by
  by_cases hx : x = y
  · subst hx
    rw [refund_credit_self, if_pos rfl]
    exact positive_saturatingAdd_le _ _
  · rw [refund_credit_of_ne b hx, if_neg (Ne.symm hx), add_zero]

/-- **The credits of a finalization secure no more than what was revealed.** -/
theorem Book.positive_refund_creditLosers_le (winner : SealedBidEntry Address)
    (entries : List (SealedBidEntry Address)) (x : Address) (b : Book Address) :
    positive ((b.creditLosers winner entries).refund x) ≤
      positive (b.refund x) +
        if winner.bidder = x then 0 else revealedTotal positive entries x := by
  induction entries generalizing b with
  | nil => simp [creditLosers, revealedTotal]
  | cons e entries ih =>
    have hpos := positive_nonneg e.amount
    rw [creditLosers_cons, revealedTotal_cons]
    by_cases hw : e.bidder = winner.bidder
    · rw [if_neg (by simpa using hw)]
      refine (ih b).trans ?_
      have hone : 0 ≤ if e.bidder = x then positive e.amount else 0 := by
        split <;> omega
      split <;> omega
    · rw [if_pos hw]
      have hrest := ih (b.credit e.bidder e.amount)
      have hone := b.positive_refund_credit_le e.bidder e.amount x
      by_cases hwx : winner.bidder = x
      · -- the winner is not credited
        rw [if_neg fun hcon => hw (hcon.trans hwx.symm)] at hone
        rw [if_pos hwx] at hrest ⊢
        omega
      · rw [if_neg hwx] at hrest ⊢
        omega

theorem positive_le_revealedTotal {entries : List (SealedBidEntry Address)}
    {e : SealedBidEntry Address} (he : e ∈ entries) :
    positive e.amount ≤ revealedTotal positive entries e.bidder := by
  induction entries with
  | nil => cases he
  | cons e' entries ih =>
    have hpos := positive_nonneg e'.amount
    have hrest := revealedTotal_nonneg entries e.bidder
    rw [revealedTotal_cons]
    rcases List.mem_cons.mp he with rfl | he
    · rw [if_pos rfl]
      omega
    · have hle := ih he
      split <;> omega

/-! ### What the token calls move -/

section Moved

variable {env : Env Address} {token me : Address}

/-- A call that an honest token may carry out brings at least what it does not take. -/
theorem TokenCall.neg_outflow_le_net (me : Address) {call : TokenCall Address}
    (h : call.Nonneg token) :
    -call.outflow token me ≤ call.net token me := by
  cases call with
  | approve => exact le_of_eq neg_zero
  | transfer t src dst amount =>
    rw [outflow, net]
    by_cases ht : t = token
    · have hpos := h ht
      rw [if_pos ht]
      by_cases hs : src = me <;> by_cases hd : dst = me <;> simp [ht, hs, hd, hpos]
    · simp [ht]

theorem TokenCall.neg_sum_outflow_le (me : Address) {calls : List (TokenCall Address)}
    (h : ∀ call ∈ calls, call.Nonneg token) :
    -(calls.map (outflow token me)).sum ≤ (calls.map (net token me)).sum := by
  induction calls with
  | nil => exact le_refl _
  | cons call calls ih =>
    have hone := neg_outflow_le_net me (h call List.mem_cons_self)
    have hrest := ih fun c hc => h c (List.mem_cons_of_mem _ hc)
    rw [List.map_cons, List.map_cons, List.sum_cons, List.sum_cons]
    omega

theorem net_lockBid (hme : env.currentContractAddress = me) {bidder : Address}
    (hb : bidder ≠ me) (amount : I128) :
    (lockBid env token bidder amount).net token me = amount.val := by
  simp [lockBid, TokenCall.net, hme, hb]

theorem outflow_lockBid {bidder : Address} (hb : bidder ≠ me) (t : Address) (amount : I128) :
    (lockBid env t bidder amount).outflow token me = 0 := by
  simp [lockBid, TokenCall.outflow, hb]

theorem outflow_refundBid_le (bidder t : Address) {amount : I128} :
    (refundBid env t bidder amount).outflow token me ≤ positive amount := by
  rw [refundBid, TokenCall.outflow]
  split
  · exact asIs_le_positive amount
  · exact positive_nonneg amount

theorem sum_outflow_payIfPositive_le (t recipient : Address) (amount : I128) :
    ((payIfPositive env t recipient amount).map (TokenCall.outflow token me)).sum ≤
      positive amount := by
  unfold payIfPositive
  split
  · rw [List.map_singleton, List.sum_singleton]
    exact outflow_refundBid_le recipient t
  · exact positive_nonneg amount

theorem outflow_refundBid_of_ne {t : Address} (ht : t ≠ token) (bidder : Address)
    (amount : I128) : (refundBid env t bidder amount).outflow token me = 0 := by
  rw [refundBid, TokenCall.outflow, if_neg fun hcon => ht hcon.1]

theorem sum_outflow_payIfPositive_of_ne {t : Address} (ht : t ≠ token) (recipient : Address)
    (amount : I128) :
    ((payIfPositive env t recipient amount).map (TokenCall.outflow token me)).sum = 0 := by
  unfold payIfPositive
  split
  · rw [List.map_singleton, List.sum_singleton]
    exact outflow_refundBid_of_ne ht recipient amount
  · rfl

/-- **A settlement pays out at most the price**, and only in the payment token. -/
theorem sum_outflow_settle_le (token wallet : Address) {a : Auction Address} {winner : Address}
    {itemCalls : List (TokenCall Address)} {breakdown : ProceedsBreakdown}
    (hterms : a.ValidTerms me) (hi : transferItem env a winner = .ok itemCalls)
    (hsplit : calculateSplit a.highestBid a.royaltyBps a.platformFeeBps = .ok breakdown) :
    let calls := itemCalls ++ distributeProceeds env a.paymentToken a.seller a.originalCreator
      wallet breakdown
    (calls.map (TokenCall.outflow token me)).sum ≤ positive a.highestBid ∧
      (a.paymentToken ≠ token → (calls.map (TokenCall.outflow token me)).sum = 0) := by
  have hitem : (itemCalls.map (TokenCall.outflow token me)).sum = 0 := by
    -- the item is the seller's, not the contract's
    rcases transferItem_eq_ok hi with rfl | ⟨item, -, rfl⟩
    · rfl
    · simp [TokenCall.outflow, hterms.seller]
  have hpart : ∀ recipient amount, ((payIfPositive env a.paymentToken recipient amount).map
      (TokenCall.outflow token me)).sum ≤ positive amount :=
    sum_outflow_payIfPositive_le a.paymentToken
  have h₁ := hpart a.seller breakdown.sellerAmount
  have h₂ := hpart a.originalCreator breakdown.royaltyAmount
  have h₃ := hpart wallet breakdown.platformFeeAmount
  have hshares : positive breakdown.sellerAmount + positive breakdown.royaltyAmount +
      positive breakdown.platformFeeAmount ≤ positive a.highestBid :=
    calculateSplit_le hsplit hterms.fees
  simp only [distributeProceeds, List.map_append, List.sum_append, hitem]
  refine ⟨by omega, fun ht => ?_⟩
  rw [sum_outflow_payIfPositive_of_ne ht, sum_outflow_payIfPositive_of_ne ht,
    sum_outflow_payIfPositive_of_ne ht]
  rfl

end Moved

/-! ### What a step secures -/

/-- **The call keeps the claims backed**: it reveals no more than was deposited, and it does
not reopen an auction that was paid out, or a sealed one whose losers were credited. -/
def Invocation.KeepsBacking (i : Invocation Address) : Prop :=
  match i.call with
  | .revealBid id x amount _ => ∀ c ∈ i.before.commitments id x, amount ≤ c.amount
  | .attestPhysicalItem id _ _ => ∀ a ∈ i.before.auctions id,
      a.status ≠ .settled ∧ (a.format = .sealedBid → a.status ≠ .ended)
  | _ => True

instance (i : Invocation Address) : Decidable i.KeepsBacking := by
  unfold Invocation.KeepsBacking
  split <;> infer_instance

section Claims

variable {env : Env Address} {id : U64} {c : Call Address} {b b' : Book Address}
  {calls : List (TokenCall Address)} {a a' : Auction Address} {token me : Address}

theorem Auction.pledged_of_ne (hf : a.format ≠ .sealedBid) (x : Address) :
    a.pledged positive x = 0 := by
  rw [pledged, if_neg fun hcon => hf hcon.1]

theorem Auction.pledged_eq (hf : a.format = .sealedBid) (hover : ¬a.Over) (x : Address) :
    a.pledged positive x = revealedTotal positive a.revealedBids x := by
  rw [pledged, if_pos ⟨hf, hover⟩]

theorem Auction.lead_of_some {y : Address} (hy : a.highestBidder = some y)
    (hs : a.status ≠ .settled) (x : Address) :
    a.lead positive x = if y = x then positive a.highestBid else 0 := by
  simp [lead, hy, hs]

/-- A quiet step secures nothing new, unless it is the attestation of an auction that is
over. -/
theorem QuietStep.lead_pledged_le (h : QuietStep env id c a a' calls)
    (hc : ∀ custodian hash, c = .attestPhysicalItem id custodian hash →
      a.status ≠ .settled ∧ (a.format = .sealedBid → a.status ≠ .ended)) (x : Address) :
    a'.lead positive x ≤ a.lead positive x ∧ a'.pledged positive x = a.pledged positive x := by
  have hbids := h.sameBids
  constructor
  · -- the standing bid is the same, and paid out if it was
    by_cases hs : a.status = .settled
    · have hsettled : a'.status = .settled := by
        cases h with
        | attest => exact absurd hs (hc _ _ rfl).1
        | activate ok => cases ok.status.symm.trans hs
        | cancel ok => rcases ok.status with hst | hst <;> cases hst.symm.trans hs
        | approve => exact hs
        | idle => exact hs
        | won hst => simp [hs] at hst
        | unsold hst => simp [hs] at hst
        | settle => rfl
      simp [Auction.lead, hs, hsettled]
    · have hpos := a.lead_nonneg x
      by_cases hx : a.highestBidder = some x
      · rw [Auction.lead_of_some hx hs, if_pos rfl, Auction.lead, hbids.highestBid]
        split
        · exact le_refl _
        · exact positive_nonneg _
      · rw [Auction.lead, hbids.highestBidder, if_neg fun hcon => hx hcon.1]
        exact hpos
  · -- what is pledged depends on whether the auction is over
    by_cases hf : a.format = .sealedBid
    · have hover := h.over_iff hf fun custodian hash hcall => by
        rintro (hs | hs)
        · exact (hc custodian hash hcall).2 hf hs
        · exact (hc custodian hash hcall).1 hs
      rw [Auction.pledged, Auction.pledged, hbids.format, hbids.revealedBids]
      simp only [hover]
    · rw [Auction.pledged_of_ne hf, Auction.pledged_of_ne (hbids.format ▸ hf)]

/-- **A quiet step pays nothing, or the standing bid**, which is then paid out. -/
theorem QuietStep.outflow_le (h : QuietStep env id c a a' calls) (token : Address)
    (hterms : a.ValidTerms me) : (calls.map (TokenCall.outflow token me)).sum = 0 ∨
      ∃ winner, a.paymentToken = token ∧ a.highestBidder = some winner ∧ a.status ≠ .settled ∧
        a'.status = .settled ∧
        (calls.map (TokenCall.outflow token me)).sum ≤ positive a.highestBid := by
  cases h with
  | @settle _ winner wallet itemCalls breakdown hs hw hi hsplit =>
    obtain ⟨hprice, hother⟩ := sum_outflow_settle_le token wallet hterms hi hsplit
    by_cases ht : a.paymentToken = token
    · refine Or.inr ⟨winner, ht, hw, ?_, rfl, hprice⟩
      rw [hs]
      rintro ⟨⟩
    · exact Or.inl (hother ht)
  | approve _ hc =>
    rw [hc]
    exact Or.inl rfl
  | _ => exact Or.inl rfl

omit [DecidableEq Address] in
theorem Book.deposit_congr (hc : b'.commitments = b.commitments) (hr : b'.revealed = b.revealed)
    (x : Address) : b'.deposit positive x = b.deposit positive x := by
  rw [deposit, deposit, hc, hr]

/-- A new standing bid, in an auction that is not sealed, raises the claim of its bidder, as
long as whoever is displaced is credited at most with the old one. -/
theorem Book.claim_le_of_bid {y : Address} (hf : a.format ≠ .sealedBid)
    (hformat : a'.format = a.format) (hc : b'.commitments = b.commitments)
    (hr : b'.revealed = b.revealed) (hy : a'.highestBidder = some y) (hs : a'.status ≠ .settled)
    {x : Address} (hrefund : positive (b'.refund x) ≤ positive (b.refund x) + a.lead positive x) :
    b'.claim positive a' x ≤
      b.claim positive a x + if y = x then positive a'.highestBid else 0 := by
  rw [claim, claim, Auction.lead_of_some hy hs, Auction.pledged_of_ne hf,
    Auction.pledged_of_ne (hformat ▸ hf), deposit_congr hc hr]
  omega

/-- The deposit of a commitment. -/
theorem Book.deposit_setCommitment_le (b : Book Address) (y : Address)
    (r : BidCommitment Address) (x : Address) : (b.setCommitment y (some r)).deposit positive x ≤
      b.deposit positive x + if y = x then positive r.amount else 0 := by
  by_cases hx : y = x
  · subst hx
    have hold := b.deposit_nonneg y
    have hpos := positive_nonneg r.amount
    rw [if_pos rfl]
    change (match Function.update b.commitments y (some r) y with
      | some c => if b.revealed y = none then positive c.amount else 0
      | none => 0) ≤ _
    rw [Function.update_self]
    dsimp only
    split <;> omega
  · rw [if_neg hx, add_zero, deposit, setCommitment_commitments,
      Function.update_of_ne (Ne.symm hx)]
    exact le_refl _

theorem Book.deposit_takeBack {y : Address} {r : BidCommitment Address}
    (hc : b.commitments y = some r) (hn : b.revealed y = none) (x : Address) :
    (b.setCommitment y none).deposit positive x =
      b.deposit positive x - if y = x then positive r.amount else 0 := by
  by_cases hx : y = x
  · subst hx
    simp [deposit, hc, hn]
  · rw [if_neg hx, sub_zero, deposit, setCommitment_commitments,
      Function.update_of_ne (Ne.symm hx)]
    rfl

theorem Book.deposit_reveal {y : Address} {r : BidCommitment Address}
    (hc : b.commitments y = some r) (hn : b.revealed y = none) (e : SealedBidEntry Address)
    (x : Address) : (b.setRevealed y e).deposit positive x =
      b.deposit positive x - if y = x then positive r.amount else 0 := by
  by_cases hx : y = x
  · subst hx
    simp [deposit, hc, hn]
  · simp [deposit, hx, Ne.symm hx]

/-- A reveal adds the bid to what is pledged, unless the auction is over. -/
theorem Auction.pledged_withReveal_le (a : Auction Address) (e : SealedBidEntry Address)
    (x : Address) : (a.withReveal e).pledged positive x ≤
      a.pledged positive x + if e.bidder = x then positive e.amount else 0 := by
  have hpos : 0 ≤ if e.bidder = x then positive e.amount else 0 := by
    split
    · exact positive_nonneg _
    · exact le_refl _
  unfold pledged
  by_cases hopen : a.format = .sealedBid ∧ ¬a.Over
  · have hopen' : (a.withReveal e).format = .sealedBid ∧ ¬(a.withReveal e).Over := hopen
    rw [if_pos hopen, if_pos hopen', withReveal, revealedTotal_append]
    refine le_of_eq ?_
    simp [revealedTotal]
  · have hopen' : ¬((a.withReveal e).format = .sealedBid ∧ ¬(a.withReveal e).Over) := hopen
    rw [if_neg hopen, if_neg hopen']
    omega

/-- **A finalization secures nothing new**: the winner's bid becomes the standing bid, the
others become refunds, and nothing is pledged any more. -/
theorem Book.claim_finalize_le {winner : SealedBidEntry Address} (hf : a.format = .sealedBid)
    (hs : a.status = .active) (hw : highestEntry a.revealedBids = some winner) (x : Address) :
    ((b.creditLosers winner a.revealedBids).setAuction (a.withWinner winner)).claim positive
      (a.withWinner winner) x ≤ b.claim positive a x := by
  have hopen : ¬a.Over := by
    rintro (hover | hover) <;> cases hs.symm.trans hover
  have hrefund := positive_refund_creditLosers_le winner a.revealedBids x b
  have hlead := Auction.lead_of_some (a := a.withWinner winner) rfl (by rintro ⟨⟩) x
  have hcommitments : ((b.creditLosers winner a.revealedBids).setAuction
      (a.withWinner winner)).commitments = b.commitments := by simp
  have hrevealed : ((b.creditLosers winner a.revealedBids).setAuction
      (a.withWinner winner)).revealed = b.revealed := by simp
  have hdeposit := deposit_congr hcommitments hrevealed x
  have hpledged : (a.withWinner winner).pledged positive x = 0 :=
    if_neg fun hcon => hcon.2 (Or.inl rfl)
  have hold := a.lead_nonneg x
  rw [claim, claim, hlead, hdeposit, hpledged, Auction.pledged_eq hf hopen]
  change positive ((b.creditLosers winner a.revealedBids).refund x) + _ + _ + _ ≤ _
  by_cases hx : winner.bidder = x
  · -- the winner's bid is one of those the winner has revealed
    have hbid := positive_le_revealedTotal (mem_of_highestEntry hw)
    rw [hx] at hbid
    rw [if_pos hx] at hrefund ⊢
    change _ + positive winner.amount + _ + _ ≤ _
    omega
  · rw [if_neg hx] at hrefund ⊢
    omega

theorem Book.claim_commit_le (b : Book Address) (a : Auction Address) (y : Address)
    (r : BidCommitment Address) (x : Address) :
    (b.setCommitment y (some r)).claim positive a x ≤
      b.claim positive a x + if y = x then positive r.amount else 0 := by
  have hdeposit := b.deposit_setCommitment_le y r x
  change positive (b.refund x) + a.lead positive x + (b.setCommitment y _).deposit positive x +
    a.pledged positive x ≤ _
  rw [claim]
  omega

/-- A bid that is revealed at no more than its deposit is not claimed at more than that. -/
theorem Book.claim_reveal_le {e : SealedBidEntry Address} {r : BidCommitment Address}
    (hc : b.commitments e.bidder = some r) (hn : b.revealed e.bidder = none)
    (hle : positive e.amount ≤ positive r.amount) (x : Address) :
    (b.setRevealed e.bidder e).claim positive (a.withReveal e) x ≤ b.claim positive a x := by
  have hdeposit := deposit_reveal hc hn e x
  have hpledged := a.pledged_withReveal_le e x
  change positive (b.refund x) + a.lead positive x + (b.setRevealed e.bidder e).deposit positive x +
    _ ≤ _
  rw [claim, hdeposit]
  by_cases hx : e.bidder = x
  · rw [if_pos hx] at hpledged ⊢
    omega
  · rw [if_neg hx] at hpledged ⊢
    omega

theorem Book.claim_takeBack {y : Address} {r : BidCommitment Address}
    (hc : b.commitments y = some r) (hn : b.revealed y = none) (a : Auction Address)
    (x : Address) : (b.setCommitment y none).claim positive a x =
      b.claim positive a x - if y = x then positive r.amount else 0 := by
  have hdeposit := deposit_takeBack hc hn x
  change positive (b.refund x) + a.lead positive x + (b.setCommitment y none).deposit positive x +
    a.pledged positive x = _
  rw [claim, hdeposit]
  omega

theorem Book.claim_withdraw (b : Book Address) (a : Auction Address) (y x : Address) :
    (b.setRefund y none).claim positive a x =
      b.claim positive a x - if y = x then positive (b.refund y) else 0 := by
  change positive ((b.setRefund y none).refund x) + a.lead positive x + b.deposit positive x +
    a.pledged positive x = _
  by_cases hx : y = x
  · subst hx
    have hnone : (b.setRefund y none).refund y = 0 := by simp [refund]
    rw [claim, hnone, if_pos rfl]
    change 0 + _ + _ + _ = _
    omega
  · have hsame : (b.setRefund y none).refund x = b.refund x := by simp [refund, Ne.symm hx]
    rw [claim, hsame, if_neg hx, sub_zero]

/-- **A quiet step raises no claim**, and what it pays is claimed no longer. -/
theorem QuietStep.claim_le (h : QuietStep env id c a a' calls) (hterms : a.ValidTerms me)
    (hpos : ∀ call ∈ calls, call.Nonneg a.paymentToken)
    (hc : ∀ custodian hash, c = .attestPhysicalItem id custodian hash →
      a.status ≠ .settled ∧ (a.format = .sealedBid → a.status ≠ .ended)) (b : Book Address) :
    ∃ x₀, ∀ x, (b.setAuction a').claim positive a' x ≤ b.claim positive a x +
      if x₀ = x then (calls.map (TokenCall.net a.paymentToken me)).sum else 0 := by
  have hpay := TokenCall.neg_sum_outflow_le me hpos
  have hquiet := h.lead_pledged_le hc
  have hclaim : ∀ x, (b.setAuction a').claim positive a' x =
      b.claim positive a x - a.lead positive x + a'.lead positive x := by
    intro x
    rw [Book.claim, Book.claim, (hquiet x).2]
    change positive (b.refund x) + _ + b.deposit positive x + _ = _
    omega
  rcases h.outflow_le a.paymentToken hterms with hnone | ⟨winner, -, hw, hopen, hsettled, hprice⟩
  · refine ⟨me, fun x => ?_⟩
    have hlead := (hquiet x).1
    rw [hclaim]
    split <;> omega
  · -- the standing bid is paid out, and no longer a claim
    refine ⟨winner, fun x => ?_⟩
    have hlead' : a'.lead positive x = 0 := if_neg fun hcon => hcon.2 hsettled
    rw [hclaim, hlead', Auction.lead_of_some hw hopen]
    split <;> omega

/-- **A step raises the claim of at most one bidder**, by at most what its token calls bring
in. -/
theorem BookStep.claim_le (h : BookStep env id c b b' calls) (ha : b.auction = some a)
    (ha' : b'.auction = some a') (hterms : a.ValidTerms me)
    (hme : env.currentContractAddress = me) (hself : env.auth me = false)
    (hpos : ∀ call ∈ calls, call.Nonneg a.paymentToken) {s s' : Storage Address}
    {events : List (Event Address)} {value : Value} (hs : s.book id = b)
    {i : Invocation Address} (hi : i = ⟨env, s, c, ⟨s', events, calls, value⟩⟩)
    (hk : i.KeepsBacking) : ∃ x₀, ∀ x, b'.claim positive a' x ≤ b.claim positive a x +
      if x₀ = x then (calls.map (TokenCall.net a.paymentToken me)).sum else 0 := by
  subst hs hi
  have hzero : ∀ x₀ x : Address, (if x₀ = x then (([] : List (TokenCall Address)).map
      (TokenCall.net a.paymentToken me)).sum else 0) = 0 := fun x₀ x => ite_self 0
  have hlock : ∀ {bidder x : Address} {amount : I128}, env.auth bidder = true →
      0 ≤ amount.val → (if bidder = x then ([lockBid env a.paymentToken bidder amount].map
        (TokenCall.net a.paymentToken me)).sum else 0) =
          if bidder = x then positive amount else 0 := by
    intro bidder x amount hauth hamount
    -- whoever authorizes a call is not the contract
    rw [List.map_singleton, List.sum_singleton, net_lockBid hme (Env.ne_of_auth hauth hself)]
    rw [positive, max_eq_left hamount]
  -- a payment to a bidder takes no more than the amount
  have hback : ∀ {bidder x : Address} {amount : I128},
      calls = [refundBid env a.paymentToken bidder amount] →
        -(if bidder = x then positive amount else 0) ≤ if bidder = x then
          (calls.map (TokenCall.net a.paymentToken me)).sum else 0 := by
    rintro bidder x amount rfl
    have hpay := TokenCall.neg_sum_outflow_le me hpos
    have hout : (refundBid env a.paymentToken bidder amount).outflow a.paymentToken me ≤
        positive amount := outflow_refundBid_le bidder a.paymentToken
    rw [List.map_singleton, List.sum_singleton] at hpay
    split <;> omega
  cases h with
  | create hb => rw [hb] at ha; cases ha
  | @quiet _ _ a₁ a₂ _ hb hq =>
    obtain rfl := Option.some.inj (hb.symm.trans ha)
    obtain rfl := Option.some.inj ha'
    refine hq.claim_le hterms hpos ?_ _
    rintro custodian hash rfl
    exact hk a₁ hb
  | @firstBid _ a₁ bidder amount hb ok hn =>
    obtain rfl := Option.some.inj (hb.symm.trans ha)
    obtain rfl := Option.some.inj ha'
    refine ⟨bidder, fun x => ?_⟩
    rw [hlock ok.auth (hpos _ List.mem_cons_self rfl)]
    refine Book.claim_le_of_bid ?_ ?_ ?_ ?_ ?_ ?_ ?_
    · rw [ok.format]
      rintro ⟨⟩
    iterate 4 exact rfl
    · rw [Auction.withBid, ok.status]
      rintro ⟨⟩
    · exact le_add_of_nonneg_right (a₁.lead_nonneg x)
  | @outbid _ a₁ bidder previous amount hb ok hp =>
    obtain rfl := Option.some.inj (hb.symm.trans ha)
    obtain rfl := Option.some.inj ha'
    refine ⟨bidder, fun x => ?_⟩
    rw [hlock ok.auth (hpos _ List.mem_cons_self rfl)]
    refine Book.claim_le_of_bid ?_ ?_ ?_ ?_ ?_ ?_ ?_
    · rw [ok.format]
      rintro ⟨⟩
    iterate 4 exact rfl
    · rw [Auction.withBid, ok.status]
      rintro ⟨⟩
    · rw [Auction.lead_of_some hp (by simp [ok.status])]
      exact (s.book id).positive_refund_credit_le previous a₁.highestBid x
  | @buy _ a₁ buyer maxPrice hb ok =>
    obtain rfl := Option.some.inj (hb.symm.trans ha)
    obtain rfl := Option.some.inj ha'
    refine ⟨buyer, fun x => ?_⟩
    rw [hlock ok.auth (hpos _ List.mem_cons_self rfl)]
    refine Book.claim_le_of_bid ?_ ?_ ?_ ?_ ?_ ?_ ?_
    · rw [ok.format]
      rintro ⟨⟩
    iterate 4 exact rfl
    · rintro ⟨⟩
    · exact le_add_of_nonneg_right (a₁.lead_nonneg x)
  | @commit _ a₁ bidder commitment amount hb ok hn =>
    obtain rfl := Option.some.inj (hb.symm.trans ha)
    obtain rfl := Option.some.inj ha'
    refine ⟨bidder, fun x => ?_⟩
    rw [hlock ok.auth (hpos _ List.mem_cons_self rfl)]
    exact (s.book id).claim_commit_le a₁ bidder (commitmentRecord env bidder commitment amount) x
  | @reveal _ a₁ bidder amount salt stored hb hc ok hn =>
    obtain rfl := Option.some.inj (hb.symm.trans ha)
    obtain rfl := Option.some.inj ha'
    have hcovered : positive amount ≤ positive stored.amount := max_le_max_right 0 (hk stored hc)
    refine ⟨bidder, fun x => ?_⟩
    rw [hzero, add_zero]
    exact Book.claim_reveal_le (e := ⟨bidder, amount, env.timestamp⟩) hc hn hcovered x
  | @takeBack _ a₁ bidder stored hb hc ok hn =>
    obtain rfl := Option.some.inj (hb.symm.trans ha)
    obtain rfl := Option.some.inj ha'
    refine ⟨bidder, fun x => (Book.claim_takeBack hc hn a₁ x).le.trans ?_⟩
    exact add_le_add_right (hback rfl) _
  | @withdraw _ a₁ bidder hb hauth hr =>
    obtain rfl := Option.some.inj (hb.symm.trans ha)
    obtain rfl := Option.some.inj (hb.symm.trans ha')
    refine ⟨bidder, fun x => ((s.book id).claim_withdraw a₁ bidder x).le.trans ?_⟩
    exact add_le_add_right (hback rfl) _
  | @finalize _ a₁ winner hb hst ht hf hd hw =>
    obtain rfl := Option.some.inj (hb.symm.trans ha)
    obtain rfl := Option.some.inj ha'
    refine ⟨env.currentContractAddress, fun x => ?_⟩
    rw [hzero, add_zero]
    exact Book.claim_finalize_le hf hst hw x

/-- **What a call pays is secured**, for somebody in the auction that the call is about. -/
theorem BookStep.outflow_le (h : BookStep env id c b b' calls) (token : Address)
    (hterms : ∀ a, b.auction = some a → a.ValidTerms me) (hself : env.auth me = false) :
    ∃ x₀, (calls.map (TokenCall.outflow token me)).sum ≤ b.secured token x₀ := by
  have hnone : (calls.map (TokenCall.outflow token me)).sum = 0 →
      ∃ x₀, (calls.map (TokenCall.outflow token me)).sum ≤ b.secured token x₀ :=
    fun hzero => ⟨me, hzero.le.trans (b.secured_nonneg token me)⟩
  -- a payment to a bidder is secured if it is part of the claim
  have hback : ∀ {a : Auction Address} {bidder : Address} {amount : I128},
      b.auction = some a → positive amount ≤ b.claim positive a bidder →
        calls = [refundBid env a.paymentToken bidder amount] →
          ∃ x₀, (calls.map (TokenCall.outflow token me)).sum ≤ b.secured token x₀ := by
    rintro a bidder amount ha hle rfl
    by_cases ht : a.paymentToken = token
    · refine ⟨bidder, ?_⟩
      rw [Book.secured_of_some ha ht, List.map_singleton, List.sum_singleton]
      exact (outflow_refundBid_le bidder _).trans hle
    · refine hnone ?_
      rw [List.map_singleton, List.sum_singleton, outflow_refundBid_of_ne ht]
  cases h with
  | create => exact hnone rfl
  | reveal => exact hnone rfl
  | finalize => exact hnone rfl
  | firstBid _ ok => exact hnone (by simp [outflow_lockBid (Env.ne_of_auth ok.auth hself)])
  | outbid _ ok => exact hnone (by simp [outflow_lockBid (Env.ne_of_auth ok.auth hself)])
  | buy _ ok => exact hnone (by simp [outflow_lockBid (Env.ne_of_auth ok.auth hself)])
  | commit _ ok => exact hnone (by simp [outflow_lockBid (Env.ne_of_auth ok.auth hself)])
  | @quiet _ _ a a' _ ha hq =>
    rcases hq.outflow_le token (hterms a ha) with hzero | ⟨winner, ht, hw, hopen, -, hprice⟩
    · exact hnone hzero
    · refine ⟨winner, hprice.trans ?_⟩
      rw [Book.secured_of_some ha ht, ← if_pos (c := winner = winner) (t := positive a.highestBid)
        (e := 0) rfl, ← Auction.lead_of_some hw hopen]
      exact (b.parts_le_claim a winner).2.1
  | @takeBack _ a bidder stored ha hc ok hn =>
    have hdeposit : b.deposit positive bidder = positive stored.amount := by
      simp [Book.deposit, hc, hn]
    exact hback ha (hdeposit ▸ (b.parts_le_claim a bidder).2.2) rfl
  | @withdraw _ a bidder ha => exact hback ha (b.parts_le_claim a bidder).1 rfl

/-- **The account of a step**: it raises what is secured for at most one bidder, by at most
what its token calls bring in. -/
theorem BookStep.secured_le (h : BookStep env id c b b' calls) (token : Address)
    (hblank : b.BlankPages) (hterms : ∀ a, b.auction = some a → a.ValidTerms me)
    (hme : env.currentContractAddress = me) (hself : env.auth me = false)
    (hpos : ∀ call ∈ calls, call.Nonneg token) {s s' : Storage Address}
    {events : List (Event Address)} {value : Value} (hs : s.book id = b)
    {i : Invocation Address} (hi : i = ⟨env, s, c, ⟨s', events, calls, value⟩⟩)
    (hk : i.KeepsBacking) : ∃ x₀, ∀ x, b'.secured token x ≤ b.secured token x +
      if x₀ = x then (calls.map (TokenCall.net token me)).sum else 0 := by
  cases ha : b.auction with
  | none =>
    obtain ⟨params, config, -, -, rfl, rfl⟩ := h.of_none ha
    -- nobody has a claim in a new auction
    have hnew : ∀ x, ((Book.blank : Book Address).setAuction
        (newAuction params id config.defaultPlatformFeeBps)).secured token x = 0 := by
      intro x
      simp [Book.secured, Book.claimIn, Book.claim, Book.refund, Book.deposit, Auction.lead,
        Auction.pledged, revealedTotal, positive, newAuction, Book.blank]
    refine ⟨me, fun x => ?_⟩
    rw [hblank ha, hnew]
    simpa using Book.secured_nonneg token Book.blank x
  | some a =>
    obtain ⟨a', ha', hsame⟩ := h.sameTerms ha
    by_cases ht : a.paymentToken = token
    · subst ht
      obtain ⟨x₀, hclaim⟩ := h.claim_le ha ha' (hterms a ha) hme hself hpos hs hi hk
      refine ⟨x₀, fun x => ?_⟩
      rw [Book.secured_of_some ha' hsame.paymentToken, Book.secured_of_some ha rfl]
      exact hclaim x
    · -- no claim is in this token, and none of it is paid
      obtain ⟨x₀, hout⟩ := h.outflow_le token hterms hself
      have hpay := TokenCall.neg_sum_outflow_le me hpos
      rw [Book.secured_of_ne ha ht] at hout
      refine ⟨x₀, fun x => ?_⟩
      rw [Book.secured_of_ne ha ht, Book.secured_of_ne ha' (hsame.paymentToken ▸ ht)]
      split <;> omega

end Claims

end UrithiBidz
