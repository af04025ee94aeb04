import UrithiBidz.Guarantees.Isolation

/-!
# The price of a Dutch auction

The price falls from the start price to the reserve, by the decay in every second. The code
computes it in machine integers, with two ways out: a product that overflows becomes the
greatest integer, and a difference that overflows becomes the reserve. Both are harmless when
the reserve is not negative. The second never happens, for the start price is positive and
nothing more than the greatest integer is taken from it; and when the first happens, both the
exact difference and the computed one are below the reserve
(`UrithiBidz.Auction.val_getCurrentPrice`).

So the price is `UrithiBidz.Auction.fallingPrice`, over the integers, and what holds of that
holds of the code: it stays between the reserve and the start price and never rises. The terms
of an auction never change, so a price that somebody has read is a limit that a later purchase
meets, however many calls come between (`UrithiBidz.Run.soldAsRead`).
-/

namespace UrithiBidz

variable {Address : Type}

/-! ### The exact price -/

namespace Auction

/-- The price at a time, exactly. -/
def fallingPrice (a : Auction Address) (t : ℤ) : ℤ :=
  if t ≤ a.startTime.val then a.startPrice.val
  else max a.reservePrice.val
    (a.startPrice.val - (t - a.startTime.val) * a.priceDecayPerSecond.val)

/-- **A Dutch auction that creation accepts**, with a reserve that is not negative. -/
structure Falls (a : Auction Address) : Prop where
  /-- The reserve is not negative. -/
  reserve : 0 ≤ a.reservePrice.val
  /-- The auction starts above its reserve. -/
  start : a.reservePrice.val < a.startPrice.val
  /-- The price falls. -/
  decay : 0 < a.priceDecayPerSecond.val

variable {a : Auction Address}

/-- **The price stays between the reserve and the start price.** -/
theorem Falls.fallingPrice_mem (h : a.Falls) (t : ℤ) :
    a.reservePrice.val ≤ a.fallingPrice t ∧ a.fallingPrice t ≤ a.startPrice.val := by
  have hstart := h.start
  unfold fallingPrice
  split
  · omega
  · next ht =>
    have hfallen : 0 ≤ (t - a.startTime.val) * a.priceDecayPerSecond.val :=
      mul_nonneg (by omega) h.decay.le
    omega

/-- **The price never rises.** -/
theorem Falls.antitone_fallingPrice (h : a.Falls) : Antitone a.fallingPrice := by
  intro t t' htt'
  by_cases ht : t ≤ a.startTime.val
  · rw [fallingPrice.eq_def a t, if_pos ht]
    exact (h.fallingPrice_mem t').2
  · have hfallen : (t - a.startTime.val) * a.priceDecayPerSecond.val ≤
        (t' - a.startTime.val) * a.priceDecayPerSecond.val :=
      mul_le_mul_of_nonneg_right (by omega) h.decay.le
    unfold fallingPrice
    rw [if_neg ht, if_neg (by omega)]
    omega

/-! ### The computed price -/

/-- **The computed price is the exact one.** -/
theorem Falls.val_getCurrentPrice (h : a.Falls) (env : Env Address) :
    (getCurrentPrice env a).val = a.fallingPrice env.timestamp.val := by
  obtain ⟨hreserve, hstart, hdecay⟩ := h
  by_cases ht : env.timestamp ≤ a.startTime
  · unfold getCurrentPrice fallingPrice
    rw [if_pos ht]
    exact (if_pos ht).symm
  · have hlt : a.startTime.val < env.timestamp.val := not_le.mp ht
    have helapsed : (I128.ofU64 (env.timestamp.saturatingSub a.startTime)).val =
        env.timestamp.val - a.startTime.val := by
      have hhi := env.timestamp.le_hi
      have hlo := a.startTime.lo_le
      rw [I128.val_ofU64, Ranged.val_saturatingSub]
      omega
    have hnonneg : 0 ≤ (env.timestamp.val - a.startTime.val) * a.priceDecayPerSecond.val :=
      mul_nonneg (by omega) hdecay.le
    have hfallen := Ranged.val_getD_checkedMul
      (x := I128.ofU64 (env.timestamp.saturatingSub a.startTime)) (y := a.priceDecayPerSecond)
      I128.max rfl (by rw [helapsed]; omega)
    rw [helapsed] at hfallen
    have hhi := a.startPrice.le_hi
    -- no more than the greatest integer is taken from a start price that is positive
    obtain ⟨current, hcurrent⟩ := Ranged.exists_checkedSub (x := a.startPrice)
      (y := ((I128.ofU64 (env.timestamp.saturatingSub a.startTime)).checkedMul
        a.priceDecayPerSecond).getD I128.max) (by omega) (by omega)
    have hval := Ranged.ofInt?_eq_some_iff.mp hcurrent
    rw [hfallen] at hval
    unfold getCurrentPrice fallingPrice
    simp only [if_neg ht, if_neg (not_le.mpr hlt), hcurrent, Option.getD_some]
    split
    · next hbelow =>
      rw [Ranged.lt_iff] at hbelow
      omega
    · next hnot =>
      rw [Ranged.lt_iff] at hnot
      omega

/-- **The price is exact and never rises.** -/
structure PricedExactly (a : Auction Address) : Prop where
  /-- It is the exact price, at any time. -/
  exact : ∀ env : Env Address, (getCurrentPrice env a).val = a.fallingPrice env.timestamp.val
  /-- It stays between the reserve and the start price. -/
  between : ∀ env : Env Address,
    a.reservePrice ≤ getCurrentPrice env a ∧ getCurrentPrice env a ≤ a.startPrice
  /-- It never rises. -/
  antitone : ∀ env env' : Env Address, env.timestamp ≤ env'.timestamp →
    getCurrentPrice env' a ≤ getCurrentPrice env a

theorem Falls.pricedExactly (h : a.Falls) : a.PricedExactly where
  exact := h.val_getCurrentPrice
  between env := by
    simp only [Ranged.le_iff, h.val_getCurrentPrice]
    exact h.fallingPrice_mem env.timestamp.val
  antitone env env' henv := by
    rw [Ranged.le_iff, h.val_getCurrentPrice, h.val_getCurrentPrice]
    exact h.antitone_fallingPrice henv

theorem SameTerms.getCurrentPrice_eq {a' : Auction Address} (h : a.SameTerms a')
    (env : Env Address) : getCurrentPrice env a' = getCurrentPrice env a := by
  unfold getCurrentPrice
  rw [h.startTime, h.startPrice, h.priceDecayPerSecond, h.reservePrice]

end Auction

/-! ### Reading a price and buying at it -/

variable [DecidableEq Address]

/-- **What was read is a limit that a purchase meets**: with the limit the purchase does what it
does without one, so it is not rejected for it, and the buyer is charged no more. -/
structure SoldAsRead (env' : Env Address) (s : Storage Address) (id : U64) (token buyer : Address)
    (limit : I128) : Prop where
  /-- The limit makes no difference. -/
  unlimited : buyNow env' s id buyer (some limit) = buyNow env' s id buyer none
  /-- While the auction is open, whoever may buy does. -/
  returns : ∀ a, s.auctions id = some a → a.status = .active → a.startTime ≤ env'.timestamp →
    env'.timestamp < a.endTime → env'.auth buyer = true → buyer ≠ a.seller →
      ∃ o, buyNow env' s id buyer (some limit) = .ok o
  /-- The buyer pays a price that is within the limit, once. -/
  charged : ∀ o, buyNow env' s id buyer (some limit) = .ok o → ∃ price, price ≤ limit ∧
    o.calls = [lockBid env' token buyer price] ∧
      (o.storage.auctions id).map (·.highestBid) = some price

/-- A limit that the price does not exceed. -/
theorem soldAsRead_of_le {env' : Env Address} {s : Storage Address} {id : U64} {buyer : Address}
    {limit : I128} {a : Auction Address} (ha : s.auctions id = some a)
    (hf : a.format = .dutch) (hle : getCurrentPrice env' a ≤ limit) :
    SoldAsRead env' s id a.paymentToken buyer limit := by
  -- a limit that is met is as good as none
  have haccepts : ∀ a', s.auctions id = some a' →
      (AcceptsPurchase env' a' buyer (some limit) ↔ AcceptsPurchase env' a' buyer none) := by
    intro a' ha'
    obtain rfl := Option.some.inj (ha.symm.trans ha')
    constructor
    · rintro ⟨h₁, h₂, h₃, h₄, h₅, h₆, -⟩
      exact ⟨h₁, h₂, h₃, h₄, h₅, h₆, by simp⟩
    · rintro ⟨h₁, h₂, h₃, h₄, h₅, h₆, -⟩
      exact ⟨h₁, h₂, h₃, h₄, h₅, h₆, by simpa using hle⟩
  refine ⟨?_, ?_, ?_⟩
  · have hmet : ∀ l ∈ some limit, getCurrentPrice env' a ≤ l := by simpa using hle
    have hnone : ∀ l ∈ (none : Option I128), getCurrentPrice env' a ≤ l := by simp
    have hlimit : ensure (∀ l ∈ some limit, getCurrentPrice env' a ≤ l)
        "Current price exceeds max acceptable price" =
          ensure (∀ l ∈ (none : Option I128), getCurrentPrice env' a ≤ l)
            "Current price exceeds max acceptable price" := by
      rw [ensure, ensure, if_pos hmet, if_pos hnone]
    simp only [buyNow, ha, unwrapOr, Except.bind, bind, hlimit]
  · intro a' ha' hactive hstarted hopen hauth hseller
    obtain rfl := Option.some.inj (ha.symm.trans ha')
    exact ⟨_, buyNow_eq_ok_iff.mpr ⟨a, ha, (haccepts a ha).mpr
      ⟨hauth, hf, hactive, hseller, hstarted, hopen, by simp⟩, rfl⟩⟩
  · intro o ho
    obtain ⟨a', ha', -, rfl⟩ := buyNow_eq_ok_iff.mp ho
    obtain rfl := Option.some.inj (ha.symm.trans ha')
    refine ⟨_, hle, rfl, ?_⟩
    exact congrArg (fun b : Book Address => b.auction.map (·.highestBid))
      (Storage.book_setAuction_self s id _)

/-! ### Along a run -/

variable {H : Host Address} {tr : List (Invocation Address)} {w : World H}

/-- **Every Dutch auction of a run falls**, if its reserve is not negative. -/
theorem Run.falls (h : Run H tr w) {id : U64} {a : Auction Address}
    (ha : w.storage.auctions id = some a) (hf : a.format = .dutch)
    (hreserve : 0 ≤ a.reservePrice.val) : a.Falls := by
  obtain ⟨now, -, hlife⟩ := h.life id
  have hterms : a.format = .dutch →
      a.reservePrice.val < a.startPrice.val ∧ 0 < a.priceDecayPerSecond.val := by
    refine hlife.of_terms (P := fun a => a.format = .dutch →
      a.reservePrice.val < a.startPrice.val ∧ 0 < a.priceDecayPerSecond.val) ?_ ?_ a ha
    · intro env params config id ok _ hdutch
      exact ok.dutch hdutch
    · intro a a' hpast hs hdutch
      rw [hs.reservePrice, hs.startPrice, hs.priceDecayPerSecond]
      exact hpast (hs.format ▸ hdutch)
  obtain ⟨hstart, hdecay⟩ := hterms hf
  exact ⟨hreserve, hstart, hdecay⟩

/-- **The price of a Dutch auction is exact and never rises**, in every state that a run
reaches, if the reserve is not negative; and whoever has read it buys within it, whatever calls
come between. -/
theorem Run.soldAsRead (h : Run H tr w) {id : U64} {a : Auction Address}
    (ha : w.storage.auctions id = some a) (hf : a.format = .dutch)
    (hreserve : 0 ≤ a.reservePrice.val) :
    a.PricedExactly ∧ ∀ (later : List (Invocation Address)) (w' : World H),
      History (fun t => t = w) (Step H) later w' → ∀ (env env' : Env Address) (buyer : Address),
        env.timestamp ≤ env'.timestamp →
          SoldAsRead env' w'.storage id a.paymentToken buyer (getCurrentPrice env a) := by
  have hpriced := (h.falls ha hf hreserve).pricedExactly
  refine ⟨hpriced, ?_⟩
  intro later w' hlater env env' buyer htime
  obtain ⟨a', ha', hkept⟩ := h.record_later .refl (fun hstep => hstep.keepsTerms)
    (fun _ _ _ h₁ h₂ => h₁.trans h₂) hlater a ha
  rw [← hkept.paymentToken]
  refine soldAsRead_of_le ha' (hkept.format.trans hf) ?_
  rw [hkept.getCurrentPrice_eq]
  exact hpriced.antitone env env' htime

/-- A painting is put up for five hundred, falling by one in a second. -/
def Stage.falling : List (Tx ℕ × Call ℕ) :=
  Stage.opening .dutch Stage.painting ++ [(Stage.signed 2 1, .activateAuction 0)]

/-- The theorem at a price that is read at time 7 and paid at time 20. -/
theorem soldAsRead_falling : ∃ (w : World Stage.host) (a : Auction ℕ) (env env' : Env ℕ),
    w.storage.auctions 0 = some a ∧ (getCurrentPrice env a).val = 493 ∧
      (getCurrentPrice env' a).val = 480 ∧ a.PricedExactly ∧
        SoldAsRead env' w.storage 0 9 3 (getCurrentPrice env a) := by
  have hreplay : (replay Stage.start Stage.falling).map (fun r =>
      (r.2.storage.auctions 0).map fun a => (a.format, a.reservePrice.val, a.paymentToken,
        (getCurrentPrice (Stage.host.env r.2.tokens (Stage.signed 3 (.of 7))) a).val,
        (getCurrentPrice (Stage.host.env r.2.tokens (Stage.signed 3 (.of 20))) a).val)) =
      some (some (.dutch, 10, 9, 493, 480)) := by decide +kernel
  obtain ⟨tr, w, hrun, hv⟩ := exists_run_of_replay Stage.world_refl rfl hreplay
  obtain ⟨a, ha, hfields⟩ := Option.map_eq_some_iff.mp hv
  simp only [Prod.mk.injEq] at hfields
  obtain ⟨hf, hreserve, htoken, hread, hpaid⟩ := hfields
  obtain ⟨hpriced, hsold⟩ := hrun.soldAsRead ha hf (by rw [hreserve]; decide)
  refine ⟨w, a, _, _, ha, hread, hpaid, hpriced, ?_⟩
  rw [← htoken]
  exact hsold [] w (.start rfl) _ _ 3 (show (Ranged.of 7 : U64) ≤ .of 20 by decide)

end UrithiBidz
