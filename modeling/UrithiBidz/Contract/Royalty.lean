import UrithiBidz.Contract.Env

/-!
# The royalty split

A hammer price is split three ways (`royalty.rs`): the original creator receives the
royalty, the platform its fee, and the seller what is left. Rates are in basis points and
both shares are rounded towards zero, so whatever rounding loses the seller gets.
-/

namespace UrithiBidz

variable {Address : Type}

/-- How a hammer price is divided. -/
structure ProceedsBreakdown where
  sellerAmount : I128
  royaltyAmount : I128
  platformFeeAmount : I128
  total : I128

/-- The share of a winning bid that a rate in basis points gives, or a panic with one of
the two messages. -/
def bpsShare (winningBid : I128) (bps : U32) (mulMessage divMessage : String) :
    Except String I128 := do
  let product ← unwrapOr mulMessage (winningBid.checkedMul (I128.ofU32 bps))
  unwrapOr divMessage (product.checkedDiv (.of 10000))

/-- Split a winning bid. -/
def calculateSplit (winningBid : I128) (royaltyBps platformFeeBps : U32) :
    Except String ProceedsBreakdown := do
  let royaltyAmount ← bpsShare winningBid royaltyBps
    "Royalty calculation overflow" "Royalty division overflow"
  let platformFeeAmount ← bpsShare winningBid platformFeeBps
    "Platform fee calculation overflow" "Platform fee division overflow"
  let rest ← unwrapOr "Seller amount underflow" (winningBid.checkedSub royaltyAmount)
  let sellerAmount ← unwrapOr "Seller amount underflow after fees"
    (rest.checkedSub platformFeeAmount)
  return ⟨sellerAmount, royaltyAmount, platformFeeAmount, winningBid⟩

/-- A transfer out of the escrow, skipped when there is nothing to pay. -/
def payIfPositive (env : Env Address) (paymentToken recipient : Address) (amount : I128) :
    List (TokenCall Address) :=
  if amount > 0 then [.transfer paymentToken env.currentContractAddress recipient amount] else []

/-- The transfers that distribute a winning bid. -/
def distributeProceeds (env : Env Address)
    (paymentToken seller originalCreator platformWallet : Address)
    (breakdown : ProceedsBreakdown) : List (TokenCall Address) :=
  payIfPositive env paymentToken seller breakdown.sellerAmount ++
    payIfPositive env paymentToken originalCreator breakdown.royaltyAmount ++
    payIfPositive env paymentToken platformWallet breakdown.platformFeeAmount

/-! ### What is paid -/

theorem mem_payIfPositive {env : Env Address} {token recipient : Address} {amount : I128}
    {call : TokenCall Address} (h : call ∈ payIfPositive env token recipient amount) :
    call = .transfer token env.currentContractAddress recipient amount ∧ 0 < amount.val := by
  unfold payIfPositive at h
  split at h
  · next hpos => exact ⟨List.mem_singleton.mp h, hpos⟩
  · cases h

/-- **Only the three parties are paid**, out of the escrow. -/
theorem mem_distributeProceeds {env : Env Address} {token seller creator wallet : Address}
    {b : ProceedsBreakdown} {call : TokenCall Address}
    (h : call ∈ distributeProceeds env token seller creator wallet b) :
    ∃ recipient amount, call = .transfer token env.currentContractAddress recipient amount ∧
      0 < amount.val ∧ (recipient = seller ∨ recipient = creator ∨ recipient = wallet) := by
  simp only [distributeProceeds, List.mem_append] at h
  rcases h with (h | h) | h
  · obtain ⟨hcall, hpos⟩ := mem_payIfPositive h
    exact ⟨_, _, hcall, hpos, Or.inl rfl⟩
  · obtain ⟨hcall, hpos⟩ := mem_payIfPositive h
    exact ⟨_, _, hcall, hpos, Or.inr (Or.inl rfl)⟩
  · obtain ⟨hcall, hpos⟩ := mem_payIfPositive h
    exact ⟨_, _, hcall, hpos, Or.inr (Or.inr rfl)⟩

/-! ### What the split is -/

/-- A share, when there is one, is the product divided by the base, towards zero. -/
theorem val_of_bpsShare_eq_ok {winningBid share : I128} {bps : U32} {m₁ m₂ : String}
    (h : bpsShare winningBid bps m₁ m₂ = .ok share) :
    share.val = (winningBid.val * bps.val).tdiv 10000 := by
  simp only [bpsShare, unwrapOr_bind_eq_ok_iff, unwrapOr_eq_ok_iff] at h
  obtain ⟨product, hmul, hdiv⟩ := h
  have hp : product.val = winningBid.val * bps.val := Ranged.ofInt?_eq_some_iff.mp hmul
  rw [Ranged.checkedDiv, if_neg (by simp), Ranged.ofInt?_eq_some_iff] at hdiv
  rw [hdiv, hp, Ranged.val_of]

/-- **What a split is**, when the arithmetic does not panic. -/
theorem calculateSplit_eq_ok {winningBid : I128} {royaltyBps platformFeeBps : U32}
    {b : ProceedsBreakdown} (h : calculateSplit winningBid royaltyBps platformFeeBps = .ok b) :
    b.royaltyAmount.val = (winningBid.val * royaltyBps.val).tdiv 10000 ∧
      b.platformFeeAmount.val = (winningBid.val * platformFeeBps.val).tdiv 10000 ∧
      b.sellerAmount.val = winningBid.val - b.royaltyAmount.val - b.platformFeeAmount.val := by
  simp only [calculateSplit, Except.bind_eq_ok_iff, unwrapOr_eq_ok_iff,
    Except.pure_eq_ok_iff] at h
  obtain ⟨royalty, hr, fee, hf, rest, hrest, seller, hs, rfl⟩ := h
  have hrest' : rest.val = winningBid.val - royalty.val := Ranged.ofInt?_eq_some_iff.mp hrest
  have hs' : seller.val = rest.val - fee.val := Ranged.ofInt?_eq_some_iff.mp hs
  exact ⟨val_of_bpsShare_eq_ok hr, val_of_bpsShare_eq_ok hf, by rw [hs', hrest']⟩

/-- **Two shares together are a part of the whole**, on the same side of zero, if the rates
together are at most the whole. -/
theorem tdiv_shares (price : ℤ) {royalty fee : ℤ} (hr : 0 ≤ royalty) (hf : 0 ≤ fee)
    (hfees : royalty + fee ≤ 10000) :
    (0 ≤ price → 0 ≤ (price * royalty).tdiv 10000 ∧ 0 ≤ (price * fee).tdiv 10000 ∧
      (price * royalty).tdiv 10000 + (price * fee).tdiv 10000 ≤ price) ∧
    (price ≤ 0 → (price * royalty).tdiv 10000 ≤ 0 ∧ (price * fee).tdiv 10000 ≤ 0 ∧
      price ≤ (price * royalty).tdiv 10000 + (price * fee).tdiv 10000) := by
  have hdistrib := mul_add price royalty fee
  constructor
  · intro hprice
    -- both products are positive, and rounded down
    have h₁ := mul_nonneg hprice hr
    have h₂ := mul_nonneg hprice hf
    have hsum := mul_le_mul_of_nonneg_left hfees hprice
    rw [Int.tdiv_eq_ediv_of_nonneg h₁, Int.tdiv_eq_ediv_of_nonneg h₂]
    omega
  · intro hprice
    -- both are negative, and rounded up
    have h₁ := mul_nonpos_of_nonpos_of_nonneg hprice hr
    have h₂ := mul_nonpos_of_nonpos_of_nonneg hprice hf
    have hsum := mul_le_mul_of_nonpos_left hfees hprice
    have hneg : ∀ n : ℤ, n ≤ 0 → n.tdiv 10000 = -(-n / 10000) := by
      intro n hn
      rw [← Int.tdiv_eq_ediv_of_nonneg (by omega), Int.neg_tdiv, neg_neg]
    rw [hneg _ h₁, hneg _ h₂]
    omega

/-- **The shares together are at most the price**, negative amounts counted as nothing, if
the rates together are at most the whole. -/
theorem calculateSplit_le {winningBid : I128} {royaltyBps platformFeeBps : U32}
    {b : ProceedsBreakdown} (h : calculateSplit winningBid royaltyBps platformFeeBps = .ok b)
    (hfees : royaltyBps.val + platformFeeBps.val ≤ 10000) :
    max b.sellerAmount.val 0 + max b.royaltyAmount.val 0 + max b.platformFeeAmount.val 0 ≤
      max winningBid.val 0 := by
  obtain ⟨hroyalty, hfee, hseller⟩ := calculateSplit_eq_ok h
  obtain ⟨hpos, hneg⟩ :=
    tdiv_shares winningBid.val royaltyBps.lo_le platformFeeBps.lo_le hfees
  rw [← hroyalty, ← hfee] at hpos hneg
  omega

/-! ### When there is a split -/

/-- The product of a price and a rate fits into a machine integer. -/
def ShareFits (winningBid : I128) (bps : U32) : Prop :=
  ∃ product : I128, product.val = winningBid.val * bps.val

/-- **A share panics exactly when the product does not fit**; the division never fails. -/
theorem bpsShare_cases (winningBid : I128) (bps : U32) (mulMessage divMessage : String) :
    (ShareFits winningBid bps ∧
        ∃ share, bpsShare winningBid bps mulMessage divMessage = .ok share) ∨
      (¬ShareFits winningBid bps ∧
        bpsShare winningBid bps mulMessage divMessage = .error mulMessage) := by
  rcases h : winningBid.checkedMul (I128.ofU32 bps) with _ | product
  · refine Or.inr ⟨?_, by rw [bpsShare, h]; rfl⟩
    rintro ⟨product, hproduct⟩
    exact Option.some_ne_none product ((Ranged.ofInt?_eq_some_iff.mpr hproduct).symm.trans h)
  · have hshare := tdiv_shares product.val (show (0 : ℤ) ≤ 1 by decide)
      (show (0 : ℤ) ≤ 0 by decide) (by decide)
    rw [mul_one, mul_zero, Int.zero_tdiv] at hshare
    have hlo := product.lo_le
    have hhi := product.le_hi
    refine Or.inl ⟨⟨product, Ranged.ofInt?_eq_some_iff.mp h⟩,
      ⟨product.val.tdiv 10000, by omega, by omega⟩, ?_⟩
    rw [bpsShare, h]
    change unwrapOr divMessage (product.checkedDiv (.of 10000)) = _
    rw [unwrapOr_eq_ok_iff, Ranged.checkedDiv, if_neg (by simp), Ranged.ofInt?_eq_some_iff]
    rfl

/-- **A price is split unless a product does not fit**, if the rates together are at most the
whole: the subtractions never fail. Otherwise the panic names the product. -/
theorem calculateSplit_cases (winningBid : I128) {royaltyBps platformFeeBps : U32}
    (hfees : royaltyBps.val + platformFeeBps.val ≤ 10000) :
    (ShareFits winningBid royaltyBps ∧ ShareFits winningBid platformFeeBps ∧
        ∃ b, calculateSplit winningBid royaltyBps platformFeeBps = .ok b) ∨
      (¬ShareFits winningBid royaltyBps ∧ calculateSplit winningBid royaltyBps platformFeeBps =
        .error "Royalty calculation overflow") ∨
      (¬ShareFits winningBid platformFeeBps ∧
        calculateSplit winningBid royaltyBps platformFeeBps =
          .error "Platform fee calculation overflow") := by
  rcases bpsShare_cases winningBid royaltyBps "Royalty calculation overflow"
    "Royalty division overflow" with ⟨hroyalty, royalty, hr⟩ | ⟨hroyalty, hr⟩
  · rcases bpsShare_cases winningBid platformFeeBps "Platform fee calculation overflow"
      "Platform fee division overflow" with ⟨hfee, fee, hf⟩ | ⟨hfee, hf⟩
    · -- the shares are on the side of the bid and together no more, so both differences fit
      obtain ⟨hpos, hneg⟩ :=
        tdiv_shares winningBid.val royaltyBps.lo_le platformFeeBps.lo_le hfees
      rw [← val_of_bpsShare_eq_ok hr, ← val_of_bpsShare_eq_ok hf] at hpos hneg
      have hlo := winningBid.lo_le
      have hhi := winningBid.le_hi
      obtain ⟨rest, hrest⟩ := Ranged.exists_checkedSub (x := winningBid) (y := royalty)
        (by omega) (by omega)
      have hval : rest.val = winningBid.val - royalty.val := Ranged.ofInt?_eq_some_iff.mp hrest
      obtain ⟨seller, hseller⟩ := Ranged.exists_checkedSub (x := rest) (y := fee)
        (by omega) (by omega)
      refine Or.inl ⟨hroyalty, hfee, ⟨seller, royalty, fee, winningBid⟩, ?_⟩
      simp only [calculateSplit, Except.bind_eq_ok_iff, unwrapOr_eq_ok_iff,
        Except.pure_eq_ok_iff]
      exact ⟨royalty, hr, fee, hf, rest, hrest, seller, hseller, rfl⟩
    · refine Or.inr (Or.inr ⟨hfee, ?_⟩)
      rw [calculateSplit, hr, hf]
      rfl
  · refine Or.inr (Or.inl ⟨hroyalty, ?_⟩)
    rw [calculateSplit, hr]
    rfl

/-- A price that is small enough has products that fit, at any rate that is at most the
whole. -/
theorem shareFits_of_le {winningBid : I128} {bps : U32} (hbps : bps.val ≤ 10000)
    (hbid : |winningBid.val| ≤ I128.max.val / 10000) : ShareFits winningBid bps := by
  have habs : |winningBid.val * bps.val| ≤ I128.max.val / 10000 * 10000 := by
    rw [abs_mul, abs_of_nonneg bps.lo_le]
    exact mul_le_mul hbid hbps bps.lo_le (by decide)
  rw [I128.val_max] at habs
  obtain ⟨hlo, hhi⟩ := abs_le.mp habs
  exact ⟨⟨winningBid.val * bps.val, by omega, by omega⟩, rfl⟩

end UrithiBidz
