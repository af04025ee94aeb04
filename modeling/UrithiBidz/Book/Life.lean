import UrithiBidz.Book.Refinement
import UrithiBidz.Library.History

/-!
# The life of an auction

An auction lives through the calls that are about it. `UrithiBidz.Life` is the transition
system whose states are the book of the auction and the time of its last step, and whose
labels are the calls; a run of the contract, whatever else happens in it, is seen from an
auction as one of these lives (`UrithiBidz.Run.life`, once runs are defined). So a property
of an auction over all runs of the contract is proved by an induction over its own steps.

The terms of an auction are what its creation fixes: no later step changes its format, its
parties, its prices and rates or its deadlines (`UrithiBidz.BookStep.sameTerms`), so what
creation checked of them holds throughout (`UrithiBidz.Life.validTerms`).
-/

namespace UrithiBidz

variable {Address : Type} [DecidableEq Address]

/-- The book of an auction that does not exist yet. -/
def Book.blank : Book Address := ⟨none, fun _ => none, fun _ => none, fun _ => none⟩

/-- **A step in the life of an auction**: a step of its book by a call of the deployed
contract, whose address is `me`, not before the last one. The contract authorizes nothing,
since it has no code that would. -/
inductive Lives (me : Address) (id : U64) :
    Book Address × U64 → Invocation Address → Book Address × U64 → Prop
  | mk {b b' : Book Address} {now : U64} {env : Env Address} {s s' : Storage Address}
      {c : Call Address} {events : List (Event Address)} {calls : List (TokenCall Address)}
      {value : Value} (step : BookStep env id c b b' calls)
      (deployed : env.currentContractAddress = me) (self : env.auth me = false)
      (time : now ≤ env.timestamp) (room : c.Room s) (before : s.book id = b)
      (after : s'.book id = b') :
      Lives me id (b, now) ⟨env, s, c, ⟨s', events, calls, value⟩⟩ (b', env.timestamp)

/-- **The lives of an auction.** -/
abbrev Life (me : Address) (id : U64) : List (Invocation Address) → Book Address × U64 → Prop :=
  History (fun p => p.1 = Book.blank) (Lives me id)

/-! ### The terms of an auction -/

/-- Two records of an auction with the same terms. -/
structure Auction.SameTerms (a a' : Auction Address) : Prop where
  id : a'.id = a.id
  seller : a'.seller = a.seller
  originalCreator : a'.originalCreator = a.originalCreator
  format : a'.format = a.format
  paymentToken : a'.paymentToken = a.paymentToken
  reservePrice : a'.reservePrice = a.reservePrice
  royaltyBps : a'.royaltyBps = a.royaltyBps
  platformFeeBps : a'.platformFeeBps = a.platformFeeBps
  startTime : a'.startTime = a.startTime
  minIncrement : a'.minIncrement = a.minIncrement
  startPrice : a'.startPrice = a.startPrice
  priceDecayPerSecond : a'.priceDecayPerSecond = a.priceDecayPerSecond
  commitDeadline : a'.commitDeadline = a.commitDeadline
  revealDeadline : a'.revealDeadline = a.revealDeadline
  maxBidders : a'.maxBidders = a.maxBidders

/-- Two records of an auction with the same terms and the same bids. -/
structure Auction.SameBids (a a' : Auction Address) : Prop extends a.SameTerms a' where
  highestBidder : a'.highestBidder = a.highestBidder
  highestBid : a'.highestBid = a.highestBid
  bidderCount : a'.bidderCount = a.bidderCount
  revealedBids : a'.revealedBids = a.revealedBids

variable {env : Env Address} {id : U64} {c : Call Address} {b b' : Book Address}
  {calls : List (TokenCall Address)}

omit [DecidableEq Address] in
/-- **A quiet step leaves the bids alone.** -/
theorem QuietStep.sameBids {a a' : Auction Address} (h : QuietStep env id c a a' calls) :
    a.SameBids a' := by
  cases h <;> exact ⟨by constructor <;> rfl, rfl, rfl, rfl, rfl⟩

/-- The auction has ended. -/
def Auction.Over (a : Auction Address) : Prop := a.status = .ended ∨ a.status = .settled

instance (a : Auction Address) : Decidable a.Over :=
  inferInstanceAs (Decidable (a.status = .ended ∨ a.status = .settled))

omit [DecidableEq Address] in
/-- A quiet step neither ends a sealed auction nor goes on with one that has ended. -/
theorem QuietStep.over_iff {a a' : Auction Address} (h : QuietStep env id c a a' calls)
    (hf : a.format = .sealedBid)
    (hc : ∀ custodian hash, c = .attestPhysicalItem id custodian hash → ¬a.Over) :
    a'.Over ↔ a.Over := by
  have hno : ∀ s : AuctionStatus, s ≠ .ended → s ≠ .settled → a'.status = s → ¬a'.Over := by
    rintro s h₁ h₂ hs (hover | hover)
    · exact h₁ (hs.symm.trans hover)
    · exact h₂ (hs.symm.trans hover)
  cases h with
  | approve => exact Iff.rfl
  | idle => exact Iff.rfl
  | attest => exact iff_of_false (hno .active (by decide) (by decide) rfl) (hc _ _ rfl)
  | activate ok =>
    refine iff_of_false (hno .active (by decide) (by decide) rfl) ?_
    rintro (hs | hs) <;> cases ok.status.symm.trans hs
  | cancel ok =>
    refine iff_of_false (hno .cancelled (by decide) (by decide) rfl) ?_
    rcases ok.status with hst | hst <;> rintro (hs | hs) <;> cases hst.symm.trans hs
  | won _ _ hf' => cases hf.symm.trans hf'
  | unsold hst =>
    refine iff_of_false (hno .cancelled (by decide) (by decide) rfl) ?_
    rcases List.mem_pair.mp hst with hst | hst <;> rintro (hs | hs) <;> cases hst.symm.trans hs
  | settle hs => exact iff_of_true (Or.inr rfl) (Or.inl hs)

/-- **No step changes the terms of an auction.** -/
theorem BookStep.sameTerms (h : BookStep env id c b b' calls) {a : Auction Address}
    (ha : b.auction = some a) : ∃ a', b'.auction = some a' ∧ a.SameTerms a' := by
  cases h with
  | create hb => rw [hb] at ha; cases ha
  | withdraw => exact ⟨a, ha, by constructor <;> rfl⟩
  | quiet hb hq =>
    obtain rfl := Option.some.inj (hb.symm.trans ha)
    exact ⟨_, rfl, hq.sameBids.toSameTerms⟩
  | _ hb =>
    obtain rfl := Option.some.inj (hb.symm.trans ha)
    exact ⟨_, rfl, by constructor <;> rfl⟩

theorem BookStep.sameTerms_of_some (h : BookStep env id c b b' calls) {a a' : Auction Address}
    (ha : b.auction = some a) (ha' : b'.auction = some a') : a.SameTerms a' := by
  obtain ⟨a₁, ha₁, hterms⟩ := h.sameTerms ha
  rw [Option.some.inj (ha'.symm.trans ha₁)]
  exact hterms

/-- **What creation checks of the terms.** -/
structure Auction.ValidTerms (me : Address) (a : Auction Address) : Prop where
  /-- The seller is not the contract. -/
  seller : a.seller ≠ me
  /-- The two rates together are at most the whole. -/
  fees : a.royaltyBps.val + a.platformFeeBps.val ≤ 10000
  /-- A bid of an English auction exceeds the one before. -/
  english : a.format = .english → 0 < a.minIncrement.val
  /-- A Dutch auction starts above its reserve. -/
  dutch : a.format = .dutch → a.reservePrice.val < a.startPrice.val
  /-- The phases of a sealed auction are in order. -/
  sealed : a.format = .sealedBid → a.commitDeadline.val < a.revealDeadline.val

omit [DecidableEq Address] in
theorem Auction.ValidTerms.of_sameTerms {me : Address} {a a' : Auction Address}
    (h : a.ValidTerms me) (hs : a.SameTerms a') : a'.ValidTerms me := by
  refine ⟨hs.seller ▸ h.seller, ?_, ?_, ?_, ?_⟩
  · rw [hs.royaltyBps, hs.platformFeeBps]
    exact h.fees
  · rw [hs.format, hs.minIncrement]
    exact h.english
  · rw [hs.format, hs.reservePrice, hs.startPrice]
    exact h.dutch
  · rw [hs.format, hs.commitDeadline, hs.revealDeadline]
    exact h.sealed

omit [DecidableEq Address] in
theorem AcceptsAuction.validTerms {params : CreateAuctionParams Address}
    {config : PlatformConfig Address} {me : Address} (h : AcceptsAuction env params config)
    (hself : env.auth me = false) :
    (newAuction params id config.defaultPlatformFeeBps).ValidTerms me := by
  refine ⟨Env.ne_of_auth h.auth hself, ?_, h.english, fun hf => (h.dutch hf).1,
    fun hf => (h.sealed hf).2.1⟩
  have hfees := Ranged.le_iff.mp h.fees
  have h₁ := params.royaltyBps.lo_le
  have h₂ := config.defaultPlatformFeeBps.lo_le
  rw [Ranged.val_saturatingAdd, Ranged.val_of] at hfees
  change params.royaltyBps.val + config.defaultPlatformFeeBps.val ≤ 10000
  omega

/-! ### What holds throughout -/

/-- The pages of an auction that does not exist are blank. -/
def Book.BlankPages (b : Book Address) : Prop := b.auction = none → b = Book.blank

theorem BookStep.isSome (h : BookStep env id c b b' calls) : b'.auction.isSome := by
  cases h with
  | withdraw hb => simp [hb]
  | _ => rfl

namespace Life

variable {me : Address} {tr : List (Invocation Address)} {p : Book Address × U64}

/-- **Induction along a life.** -/
theorem induct {P : List (Invocation Address) → Book Address → U64 → Prop}
    (start : ∀ now, P [] Book.blank now)
    (step : ∀ tr b now env s c s' events calls value b', Life me id tr (b, now) → P tr b now →
      BookStep env id c b b' calls → env.currentContractAddress = me → env.auth me = false →
      now ≤ env.timestamp → c.Room s → s.book id = b → s'.book id = b' →
      P (tr ++ [⟨env, s, c, ⟨s', events, calls, value⟩⟩]) b' env.timestamp)
    (h : Life me id tr p) : P tr p.1 p.2 := by
  refine History.invariant (P := fun tr p => P tr p.1 p.2) ?_ ?_ h
  · intro p hp
    rw [hp]
    exact start p.2
  · intro tr p i p' hl ih hs
    cases hs with
    | mk hstep hdep hself htime hroom hbefore hafter =>
      exact step _ _ _ _ _ _ _ _ _ _ _ hl ih hstep hdep hself htime hroom hbefore hafter

/-- **Induction along a life** all of whose calls meet a condition. -/
theorem induct_of {C : Invocation Address → Prop}
    {P : List (Invocation Address) → Book Address → U64 → Prop}
    (start : ∀ now, P [] Book.blank now)
    (step : ∀ tr b now env s c s' events calls value b', Life me id tr (b, now) → P tr b now →
      C ⟨env, s, c, ⟨s', events, calls, value⟩⟩ →
      BookStep env id c b b' calls → env.currentContractAddress = me → env.auth me = false →
      now ≤ env.timestamp → c.Room s → s.book id = b → s'.book id = b' →
      P (tr ++ [⟨env, s, c, ⟨s', events, calls, value⟩⟩]) b' env.timestamp)
    (h : Life me id tr p) (hC : ∀ i ∈ tr, C i) : P tr p.1 p.2 := by
  refine induct (P := fun tr b now => (∀ i ∈ tr, C i) → P tr b now) ?_ ?_ h hC
  · intro now _
    exact start now
  · intro tr b now env s c s' events calls value b' hl ih hstep hdep hself htime hroom hbefore
      hafter hC
    exact step _ _ _ _ _ _ _ _ _ _ _ hl (ih fun i hi => hC i (List.mem_append_left _ hi))
      (hC _ (by simp)) hstep hdep hself htime hroom hbefore hafter

theorem unborn (h : Life me id tr p) (hnone : p.1.auction = none) :
    tr = [] ∧ p.1 = Book.blank := by
  refine induct (P := fun tr b _ => b.auction = none → tr = [] ∧ b = Book.blank)
    (fun _ _ => ⟨rfl, rfl⟩) ?_ h hnone
  intro tr b now env s c s' events calls value b' _ _ hstep _ _ _ _ _ _ hnone
  have hsome := hstep.isSome
  rw [hnone] at hsome
  cases hsome

/-- **There is nothing on the pages of an auction before it is created.** -/
theorem blankPages (h : Life me id tr p) : p.1.BlankPages := fun hnone => (h.unborn hnone).2

theorem time_le (h : Life me id tr p) : ∀ i ∈ tr, i.env.timestamp ≤ p.2 := by
  refine induct (P := fun tr _ now => ∀ i ∈ tr, i.env.timestamp ≤ now)
    (fun _ i hi => absurd hi List.not_mem_nil) ?_ h
  intro tr b now env s c s' events calls value b' hl ih hstep _ _ htime _ _ _ i hi
  rcases List.mem_append.mp hi with hi | hi
  · exact (ih i hi).trans htime
  · rw [List.mem_singleton.mp hi]

/-- **What creation checks of the terms holds throughout**, whatever it is. -/
theorem of_terms {P : Auction Address → Prop}
    (hnew : ∀ (env : Env Address) params config id, AcceptsAuction env params config →
      env.auth me = false → P (newAuction params id config.defaultPlatformFeeBps))
    (hsame : ∀ a a', P a → a.SameTerms a' → P a') (h : Life me id tr p) :
    ∀ a, p.1.auction = some a → P a := by
  refine induct (P := fun _ b _ => ∀ a, b.auction = some a → P a)
    (fun _ _ ha => by cases ha) ?_ h
  intro tr b now env s c s' events calls value b' _ ih hstep _ hself _ _ _ _ a' ha'
  cases ha : b.auction with
  | some a =>
    exact hsame a a' (ih a ha) (hstep.sameTerms_of_some ha ha')
  | none =>
    obtain ⟨params, config, -, ok, rfl, -⟩ := hstep.of_none ha
    rw [← Option.some.inj ha']
    exact hnew _ _ _ _ ok hself

/-- **The terms are valid throughout.** -/
theorem validTerms (h : Life me id tr p) : ∀ a, p.1.auction = some a → a.ValidTerms me :=
  h.of_terms (fun _ _ _ _ ok hself => ok.validTerms hself) fun _ _ ha hs => ha.of_sameTerms hs

end Life

end UrithiBidz
