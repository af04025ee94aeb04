import UrithiBidz.Ledger.Replay

/-!
# Auctions are isolated and keep their terms

Every entry point that changes an auction loads the whole record, edits a few fields and
writes the whole record back, under a key made from the id that it was given. So nothing in
the code says that the other fields stay as they were, or that the key is the right one; both
have to be seen for each entry point. They were, once and for all, when the entry points were
shown to step books (`UrithiBidz.invoke_book`).

What remains is to say which fields a step may write: the terms of an auction stay, and of the
item only what a custodian attests may change (`UrithiBidz.BookStep.keepsTerms`). The ids come
from a counter that no call but a creation advances, so it counts the creations
(`UrithiBidz.Run.nextId_eq`), and the ids are given out in order. `UrithiBidz.Run.isolated` puts
this together.
-/

namespace UrithiBidz

variable {Address : Type}

/-! ### What a step may write -/

/-- **Two items that are the same**, what is attested of a physical one apart. -/
inductive ItemType.Same : ItemType Address → ItemType Address → Prop
  /-- A digital item does not change at all. -/
  | digital (item : DigitalItem Address) : Same (.digital item) (.digital item)
  /-- The custodian of a physical item does not change. -/
  | physical (custodian : Address) (hash hash' : BytesN 32) :
      Same (.physical ⟨custodian, hash⟩) (.physical ⟨custodian, hash'⟩)

theorem ItemType.Same.refl (item : ItemType Address) : item.Same item := by
  rcases item with item | ⟨custodian, hash⟩
  · exact .digital item
  · exact .physical custodian hash hash

theorem ItemType.Same.trans {item item₁ item₂ : ItemType Address} (h₁ : item.Same item₁)
    (h₂ : item₁.Same item₂) : item.Same item₂ := by
  cases h₁ with
  | digital => exact h₂
  | physical custodian hash hash' =>
    cases h₂ with
    | physical _ _ hash'' => exact .physical custodian hash hash''

theorem ItemType.Same.symm {item item' : ItemType Address} (h : item.Same item') :
    item'.Same item := by
  cases h with
  | digital item => exact .digital item
  | physical custodian hash hash' => exact .physical custodian hash' hash

theorem ItemType.Same.exists_eq {item : PhysicalItem Address} {item' : ItemType Address}
    (h : ItemType.Same (.physical item) item') :
    ∃ hash, item' = .physical ⟨item.custodian, hash⟩ := by
  cases h with
  | physical custodian hash hash' => exact ⟨hash', rfl⟩

/-- **What no call changes of an auction.** -/
structure Auction.KeepsTerms (a a' : Auction Address) : Prop extends a.SameTerms a' where
  metadataUri : a'.metadataUri = a.metadataUri
  item : a.item.Same a'.item

theorem Auction.KeepsTerms.refl (a : Auction Address) : a.KeepsTerms a :=
  ⟨by constructor <;> rfl, rfl, .refl _⟩

theorem Auction.KeepsTerms.trans {a a₁ a₂ : Auction Address} (h₁ : a.KeepsTerms a₁)
    (h₂ : a₁.KeepsTerms a₂) : a.KeepsTerms a₂ where
  id := h₂.id.trans h₁.id
  seller := h₂.seller.trans h₁.seller
  originalCreator := h₂.originalCreator.trans h₁.originalCreator
  format := h₂.format.trans h₁.format
  paymentToken := h₂.paymentToken.trans h₁.paymentToken
  reservePrice := h₂.reservePrice.trans h₁.reservePrice
  royaltyBps := h₂.royaltyBps.trans h₁.royaltyBps
  platformFeeBps := h₂.platformFeeBps.trans h₁.platformFeeBps
  startTime := h₂.startTime.trans h₁.startTime
  minIncrement := h₂.minIncrement.trans h₁.minIncrement
  startPrice := h₂.startPrice.trans h₁.startPrice
  priceDecayPerSecond := h₂.priceDecayPerSecond.trans h₁.priceDecayPerSecond
  commitDeadline := h₂.commitDeadline.trans h₁.commitDeadline
  revealDeadline := h₂.revealDeadline.trans h₁.revealDeadline
  maxBidders := h₂.maxBidders.trans h₁.maxBidders
  metadataUri := h₂.metadataUri.trans h₁.metadataUri
  item := h₁.item.trans h₂.item

variable [DecidableEq Address] {env : Env Address} {id : U64} {c : Call Address}
  {b b' : Book Address} {calls : List (TokenCall Address)}

omit [DecidableEq Address] in
theorem QuietStep.keepsTerms {a a' : Auction Address} (h : QuietStep env id c a a' calls) :
    a.KeepsTerms a' := by
  refine ⟨h.sameBids.toSameTerms, ?_, ?_⟩
  · cases h <;> rfl
  · cases h with
    | @attest _ _ hash item _ hi hc =>
      rw [hi]
      subst hc
      exact .physical item.custodian item.attestationHash hash
    | _ => exact .refl _

/-- **A step keeps the terms of an auction.** -/
theorem BookStep.keepsTerms (h : BookStep env id c b b' calls) :
    ∀ a, b.auction = some a → ∃ a', b'.auction = some a' ∧ a.KeepsTerms a' := by
  intro a ha
  obtain ⟨a', ha', hterms⟩ := h.sameTerms ha
  suffices hrest : a'.metadataUri = a.metadataUri ∧ a.item.Same a'.item from
    ⟨a', ha', hterms, hrest.1, hrest.2⟩
  cases h with
  | create hnone => rw [hnone] at ha; cases ha
  | withdraw =>
    obtain rfl := Option.some.inj (ha.symm.trans ha')
    exact ⟨rfl, .refl _⟩
  | quiet hb hq =>
    obtain rfl := Option.some.inj (ha.symm.trans hb)
    obtain rfl := Option.some.inj ha'
    exact ⟨hq.keepsTerms.metadataUri, hq.keepsTerms.item⟩
  | _ hb =>
    obtain rfl := Option.some.inj (ha.symm.trans hb)
    obtain rfl := Option.some.inj ha'
    exact ⟨rfl, .refl _⟩

/-! ### The counter -/

/-- Whether a call creates an auction. -/
def Call.isCreation : Call Address → Bool
  | .createAuction _ => true
  | _ => false

/-- How many auctions were created. -/
def creations (tr : List (Invocation Address)) : ℕ := tr.countP fun i => i.call.isCreation

omit [DecidableEq Address] in
theorem Call.isCreation_iff : c.isCreation = true ↔ ∃ params, c = .createAuction params := by
  cases c <;> simp [isCreation]

variable {H : Host Address} {tr : List (Invocation Address)} {w : World H}

/-- **The counter counts the creations.** -/
theorem Run.nextId_eq (h : Run H tr w) : w.storage.nextId.val = creations tr := by
  -- without settings nothing was created, which the setup needs to start at zero
  suffices hboth : w.storage.nextId.val = creations tr ∧
      (w.storage.config = none → creations tr = 0) from hboth.1
  refine History.invariant (P := fun tr w => w.storage.nextId.val = (creations tr : ℤ) ∧
    (w.storage.config = none → creations tr = 0)) ?_ ?_ h
  · intro w hw
    rw [hw]
    exact ⟨rfl, fun _ => rfl⟩
  · rintro tr w i w' - ⟨hcount, hnone⟩ hs
    obtain ⟨hbefore, hafter, hret, -, hroom⟩ := hs.returns
    rw [hbefore] at hret hroom
    rw [hafter, creations, List.countP_append]
    by_cases hcreates : i.call.isCreation
    · have hone : [i].countP (fun i => i.call.isCreation) = 1 := by simp [hcreates]
      obtain ⟨params, hcall⟩ := Call.isCreation_iff.mp hcreates
      rw [hcall] at hret hroom
      obtain ⟨config, hconfig, -, ho⟩ := createAuction_eq_ok_iff.mp hret
      rw [ho]
      refine ⟨?_, fun hcon => ?_⟩
      · -- there is room for one more id
        change (w.storage.nextId.wrappingAdd 1).val = _
        rw [U64.val_wrappingAdd_one hroom, hone, hcount]
        rfl
      · exact absurd (hconfig.symm.trans hcon) (Option.some_ne_none config)
    · have hzero : [i].countP (fun i => i.call.isCreation) = 0 := by simp [hcreates]
      rw [hzero, Nat.add_zero]
      rcases invoke_counter hret fun params hc =>
        hcreates (Call.isCreation_iff.mpr ⟨params, hc⟩) with ⟨hconfig, hstart⟩ |
        ⟨hnext, hconfig⟩
      · -- the platform has just been set up
        rw [hstart]
        have hempty := hnone hconfig
        exact ⟨by rw [← creations, hempty]; rfl, fun _ => hempty⟩
      · rw [hnext]
        exact ⟨hcount, fun hcon => hnone (hconfig.mp hcon)⟩

/-! ### Along a run -/

/-- **Auctions are fresh, isolated and keep their terms**, along a run. -/
structure Isolated {H : Host Address} (tr : List (Invocation Address)) (w : World H) :
    Prop where
  /-- The ids are given out in order, from zero, and nothing is overwritten. -/
  numbered : ∀ past i later params, tr = past ++ i :: later → i.call = .createAuction params →
    ∃ id : U64, i.outcome.value = .u64 id ∧ id.val = creations past ∧
      i.before.book id = Book.blank ∧
        ∃ fee, i.outcome.storage.auctions id = some (newAuction params id fee)
  /-- No call changes the terms of an auction. -/
  keeps : ∀ i ∈ tr, ∀ id a, i.before.auctions id = some a →
    ∃ a', i.outcome.storage.auctions id = some a' ∧ a.KeepsTerms a'
  /-- Nor do any number of calls. -/
  kept : ∀ i ∈ tr, ∀ id a, i.outcome.storage.auctions id = some a →
    ∃ a', w.storage.auctions id = some a' ∧ a.KeepsTerms a'
  /-- A call about an auction changes nothing that is stored under another id. -/
  apart : ∀ i ∈ tr, ∀ id other, i.About id → other ≠ id →
    i.outcome.storage.book other = i.before.book other

/-- **Auctions are fresh, isolated and keep their terms**, in any run. -/
theorem Run.isolated (h : Run H tr w) : Isolated tr w where
  numbered := by
    rintro past i later params rfl hcall
    obtain ⟨t, t', hpast, hs, -⟩ := History.at_step h
    obtain ⟨hbefore, -, hret, -, -⟩ := hs.returns
    rw [hcall] at hret
    obtain ⟨config, -, -, ho⟩ := createAuction_eq_ok_iff.mp hret
    refine ⟨i.before.nextId, by rw [ho]; rfl, ?_, ?_, config.defaultPlatformFeeBps, ?_⟩
    · rw [hbefore]
      exact Run.nextId_eq hpast
    · rw [hbefore]
      obtain ⟨now, -, hlife⟩ := Run.life hpast t.storage.nextId
      exact hlife.blankPages (Run.fresh hpast).next
    · rw [ho]
      exact congrArg Book.auction (Storage.book_setAuction_self _ i.before.nextId _)
  keeps i hi id := h.record_step .refl (fun hstep => hstep.keepsTerms) i hi
  kept i hi id := h.record_since .refl (fun hstep => hstep.keepsTerms)
    (fun _ _ _ h₁ h₂ => h₁.trans h₂) i hi
  apart i hi id other hid hother := by
    refine h.frame hi fun hcon => hother ?_
    exact Option.some.inj (hcon.symm.trans hid)

/-- Two auctions, and a bid on the first. -/
def Stage.twoAuctions : List (Tx ℕ × Call ℕ) :=
  Stage.opening .english Stage.painting ++
    [(Stage.signed 2 0, .createAuction (Stage.params .dutch Stage.mask)),
      (Stage.signed 2 1, .activateAuction 0),
      (Stage.signed 3 (.of 2), .placeBid 0 3 (.of 100)),
      (Stage.signed 5 (.of 3), .attestPhysicalItem 1 5 (BytesN.replicate 32 1))]

/-- The theorem at two auctions. -/
theorem isolated_twoAuctions : ∃ (tr : List (Invocation ℕ)) (w : World Stage.host),
    Run Stage.host tr w ∧ creations tr = 2 ∧
      (w.storage.auctions 0).map (·.highestBid) = some (.of 100) ∧
        (w.storage.auctions 1).map (·.attested) = some true ∧ Isolated tr w := by
  have hreplay : (replay Stage.start Stage.twoAuctions).map (fun r => (creations r.1,
      (r.2.storage.auctions 0).map (·.highestBid), (r.2.storage.auctions 1).map (·.attested))) =
        some (2, some (.of 100), some true) := by decide +kernel
  obtain ⟨tr, w, hrun, hv⟩ := exists_run_of_replay Stage.world_refl rfl hreplay
  simp only [Prod.mk.injEq] at hv
  obtain ⟨hcount, hfirst, hsecond⟩ := hv
  exact ⟨tr, w, hrun, hcount, hfirst, hsecond, hrun.isolated⟩

end UrithiBidz
