import UrithiBidz.Guarantees.Deadline
import UrithiBidz.Guarantees.Isolation
import UrithiBidz.Guarantees.Lifecycle

/-!
# Physical items are attested before they trade

Bids, purchases and commitments look at the status of an auction and at nothing else. That a
physical item is in the hands of its custodian before anybody pays for it rests on the two
calls that open an auction: the attestation itself, and an activation, which asks for it. And
it rests on what the other calls do not do: none of them opens an auction or takes the mark of
an attestation away.

`UrithiBidz.Auction.Vouched` is what a life keeps (`UrithiBidz.Life.vouched`): an item that is
not attested belongs to an auction that is not open, and an item that is was attested by the
custodian who was named when the auction was created. `UrithiBidz.Run.attestedFirst` is the
theorem about runs.
-/

namespace UrithiBidz

variable {Address : Type} [DecidableEq Address]

/-! ### Attestations and trades -/

/-- The call is an attestation of the item, and the custodian has authorized it. -/
def Invocation.Attests (id : U64) (item : PhysicalItem Address) (i : Invocation Address) :
    Prop :=
  i.call = .attestPhysicalItem id item.custodian item.attestationHash ∧
    i.env.auth item.custodian = true

/-- The call is a bid, a purchase or a commitment. -/
inductive Call.Trades (id : U64) : Call Address → Prop
  | bid (bidder : Address) (amount : I128) : Trades id (.placeBid id bidder amount)
  | purchase (buyer : Address) (maxPrice : Option I128) : Trades id (.buyNow id buyer maxPrice)
  | commitment (bidder : Address) (commitment : BytesN 32) (amount : I128) :
      Trades id (.commitBid id bidder commitment amount)

variable {env : Env Address} {id : U64} {c : Call Address} {b b' : Book Address}
  {calls : List (TokenCall Address)} {me : Address}

omit [DecidableEq Address] in
theorem Invocation.about_of_trades {i : Invocation Address} (h : i.call.Trades id) :
    i.About id := by
  rw [About]
  generalize i.call = c at h
  cases h <;> rfl

/-- **Only an open auction trades.** -/
theorem BookStep.active_of_trades (h : BookStep env id c b b' calls) (hc : c.Trades id) :
    ∃ a, b.auction = some a ∧ a.status = .active := by
  rcases hc with ⟨bidder, amount⟩ | ⟨buyer, maxPrice⟩ | ⟨bidder, commitment, amount⟩
  · obtain ⟨a, ha, ok, -⟩ := h.placed
    exact ⟨a, ha, ok.status⟩
  · cases h with
    | buy ha ok => exact ⟨_, ha, ok.status⟩
    | quiet _ hq => cases hq
  · cases h with
    | commit ha ok => exact ⟨_, ha, ok.status⟩
    | quiet _ hq => cases hq

/-! ### Along a life -/

/-- **What vouches for the item of an auction**, in the calls so far. -/
structure Auction.Vouched (a : Auction Address) (id : U64) (tr : List (Invocation Address)) :
    Prop where
  /-- A digital item is not attested. -/
  digital : ∀ item, a.item = .digital item → a.attested = false
  /-- The item is the one that the auction was created with. -/
  named : ∃ i ∈ tr, ∃ params, i.call = .createAuction params ∧ params.item.Same a.item
  /-- What is known of an attested item is what the custodian attested. -/
  recorded : ∀ item, a.item = .physical item → a.attested = true → ∃ i ∈ tr, i.Attests id item
  /-- An auction whose item is not attested has not been opened. -/
  unopened : ∀ item, a.item = .physical item → a.attested = false →
    a.status = .created ∨ a.status = .cancelled

omit [DecidableEq Address] in
/-- A call that neither touches the item nor opens the auction. -/
theorem Auction.Vouched.snoc {a a' : Auction Address} {tr : List (Invocation Address)}
    (h : a.Vouched id tr) (i : Invocation Address) (hitem : a'.item = a.item)
    (hattested : a'.attested = a.attested)
    (hstatus : ∀ item, a.item = .physical item → a.attested = false →
      a.status = .created ∨ a.status = .cancelled →
        a'.status = .created ∨ a'.status = .cancelled) : a'.Vouched id (tr ++ [i]) := by
  refine ⟨?_, ?_, ?_, ?_⟩
  · rw [hitem, hattested]
    exact h.digital
  · obtain ⟨j, hj, params, hcreate, hsame⟩ := h.named
    exact ⟨j, List.mem_append_left _ hj, params, hcreate, hitem ▸ hsame⟩
  · rw [hitem, hattested]
    intro item hphysical htrue
    obtain ⟨j, hj, hattests⟩ := h.recorded item hphysical htrue
    exact ⟨j, List.mem_append_left _ hj, hattests⟩
  · rw [hitem, hattested]
    exact fun item hphysical hfalse =>
      hstatus item hphysical hfalse (h.unopened item hphysical hfalse)

omit [DecidableEq Address] in
/-- A quiet step keeps the item vouched for; an attestation vouches for it anew. -/
theorem QuietStep.vouched {a a' : Auction Address} (h : QuietStep env id c a a' calls)
    {tr : List (Invocation Address)} (hold : a.Vouched id tr)
    (hopen : a.status = .created → a.highestBidder = none) {s s' : Storage Address}
    {events : List (Event Address)} {value : Value} :
    a'.Vouched id (tr ++ [⟨env, s, c, ⟨s', events, calls, value⟩⟩]) := by
  cases h with
  | @attest _ custodian hash item hauth hi hc =>
    subst hc
    refine ⟨?_, ?_, ?_, ?_⟩
    · rintro _ ⟨⟩
    · obtain ⟨j, hj, params, hcreate, hsame⟩ := hold.named
      rw [hi] at hsame
      refine ⟨j, List.mem_append_left _ hj, params, hcreate, hsame.trans ?_⟩
      exact .physical item.custodian item.attestationHash hash
    · rintro _ ⟨⟩ -
      exact ⟨_, List.mem_append_right _ (List.mem_singleton_self _), rfl, hauth⟩
    · rintro _ - ⟨⟩
  | activate ok =>
    refine hold.snoc _ rfl rfl fun item hitem hfalse _ => ?_
    cases (ok.attested item hitem).symm.trans hfalse
  | cancel => exact hold.snoc _ rfl rfl fun _ _ _ _ => Or.inr rfl
  | approve => exact hold.snoc _ rfl rfl fun _ _ _ hs => hs
  | idle => exact hold.snoc _ rfl rfl fun _ _ _ hs => hs
  | unsold => exact hold.snoc _ rfl rfl fun _ _ _ _ => Or.inr rfl
  | won hactive _ _ hw =>
    -- nobody has bid on an auction that has not been opened
    refine hold.snoc _ rfl rfl fun _ _ _ hs => ?_
    rcases hs with hs | hs
    · rw [hopen hs] at hw
      cases hw
    · rw [hs] at hactive
      exact absurd hactive (by decide)
  | settle hended =>
    refine hold.snoc _ rfl rfl fun _ _ _ hs => ?_
    rcases hs with hs | hs <;> cases hended.symm.trans hs

/-- **A step keeps the item vouched for.** -/
theorem BookStep.vouched (h : BookStep env id c b b' calls) (hopen : b.UnbidUntilOpen)
    {tr : List (Invocation Address)} (hold : ∀ a, b.auction = some a → a.Vouched id tr)
    {s s' : Storage Address} {events : List (Event Address)} {value : Value} :
    ∀ a', b'.auction = some a' →
      a'.Vouched id (tr ++ [⟨env, s, c, ⟨s', events, calls, value⟩⟩]) := by
  intro a' ha'
  cases h with
  | @create _ params config hnone =>
    rw [← Option.some.inj ha']
    refine ⟨fun _ _ => rfl, ?_, ?_, fun _ _ _ => Or.inl rfl⟩
    · exact ⟨_, List.mem_append_right _ (List.mem_singleton_self _), params, rfl, .refl _⟩
    · rintro item - ⟨⟩
  | withdraw => exact (hold a' ha').snoc _ rfl rfl fun _ _ _ hs => hs
  -- the one kind of step that attests or activates
  | quiet ha hq =>
    rw [← Option.some.inj ha']
    exact hq.vouched (hold _ ha) (hopen _ ha)
  | firstBid ha ok =>
    rw [← Option.some.inj ha']
    exact (hold _ ha).snoc _ rfl rfl fun _ _ _ hs => hs
  | outbid ha ok =>
    rw [← Option.some.inj ha']
    exact (hold _ ha).snoc _ rfl rfl fun _ _ _ hs => hs
  | commit ha ok =>
    rw [← Option.some.inj ha']
    exact (hold _ ha).snoc _ rfl rfl fun _ _ _ hs => hs
  | reveal ha _ ok =>
    rw [← Option.some.inj ha']
    exact (hold _ ha).snoc _ rfl rfl fun _ _ _ hs => hs
  | takeBack ha _ ok =>
    rw [← Option.some.inj ha']
    exact (hold _ ha).snoc _ rfl rfl fun _ _ _ hs => hs
  -- what is sold had been activated
  | buy ha ok =>
    rw [← Option.some.inj ha']
    refine (hold _ ha).snoc _ rfl rfl fun _ _ _ hs => ?_
    rcases hs with hs | hs <;> cases ok.status.symm.trans hs
  | finalize ha hactive =>
    rw [← Option.some.inj ha']
    refine (hold _ ha).snoc _ rfl rfl fun _ _ _ hs => ?_
    rcases hs with hs | hs <;> cases hactive.symm.trans hs

/-- **The item of an auction is vouched for throughout.** -/
theorem Life.vouched {tr : List (Invocation Address)} {p : Book Address × U64}
    (h : Life me id tr p) : ∀ a, p.1.auction = some a → a.Vouched id tr := by
  refine induct (P := fun tr b _ => ∀ a, b.auction = some a → a.Vouched id tr)
    (fun _ _ ha => by cases ha) ?_ h
  intro tr b now env s c s' events calls value b' hl ih hstep _ _ _ _ _ _
  exact hstep.vouched hl.unbidUntilOpen ih

/-! ### Along a run -/

variable {H : Host Address} {tr : List (Invocation Address)} {w : World H}

/-- **An item is attested before it trades**: what is known of the item of an auction, along
a run. -/
structure AttestedFirst {H : Host Address} (id : U64) (tr : List (Invocation Address))
    (w : World H) : Prop where
  /-- A physical item whose auction is open, or has been sold, is attested, by the custodian
  who was named at the creation of the auction. -/
  attested : ∀ a item, w.storage.auctions id = some a → a.item = .physical item →
    a.status = .active ∨ a.status = .ended ∨ a.status = .settled →
      a.attested = true ∧ ∃ i ∈ tr, i.Attests id item
  /-- The custodian is the one who was named at the creation of the auction. -/
  named : ∀ a item, w.storage.auctions id = some a → a.item = .physical item →
    ∃ i ∈ tr, ∃ params hash, i.call = .createAuction params ∧ i.About id ∧
      params.item = .physical ⟨item.custodian, hash⟩
  /-- The custodian never changes. -/
  custodian : ∀ i ∈ tr, ∀ a item, i.outcome.storage.auctions id = some a →
    a.item = .physical item → ∃ a' hash, w.storage.auctions id = some a' ∧
      a'.item = .physical ⟨item.custodian, hash⟩
  /-- A physical item does not trade before the custodian has attested it. -/
  traded : ∀ past i later, tr = past ++ i :: later → i.call.Trades id →
    ∀ a item, i.before.auctions id = some a → a.item = .physical item →
      ∃ j ∈ past, j.Attests id item
  /-- A digital item is not attested. -/
  digital : ∀ a item, w.storage.auctions id = some a → a.item = .digital item →
    a.attested = false

theorem Run.vouched (h : Run H tr w) : ∀ a, w.storage.auctions id = some a →
    a.Vouched id (tr.filter (·.About id)) := by
  obtain ⟨now, -, hlife⟩ := h.life id
  exact hlife.vouched

/-- An open auction of a physical item has been attested. -/
theorem Run.attests_of_open (h : Run H tr w) {a : Auction Address} {item : PhysicalItem Address}
    (ha : w.storage.auctions id = some a) (hitem : a.item = .physical item)
    (hs : a.status = .active ∨ a.status = .ended ∨ a.status = .settled) :
    a.attested = true ∧ ∃ i ∈ tr, i.Attests id item := by
  have hvouched := h.vouched a ha
  have htrue : a.attested = true := by
    rcases hattested : a.attested with _ | _
    · -- an item that is not attested belongs to an auction that is not open
      have hclosed := hvouched.unopened item hitem hattested
      rcases hs with hs | hs | hs <;> rcases hclosed with hc | hc <;> cases hs.symm.trans hc
    · rfl
  obtain ⟨i, hi, hattests⟩ := hvouched.recorded item hitem htrue
  exact ⟨htrue, i, (List.mem_filter.mp hi).1, hattests⟩

/-- **Physical items are attested before they trade**, in any run. -/
theorem Run.attestedFirst (h : Run H tr w) (id : U64) : AttestedFirst id tr w where
  attested a item ha hitem hs := h.attests_of_open ha hitem hs
  named a item ha hitem := by
    obtain ⟨i, hi, params, hcall, hsame⟩ := (h.vouched a ha).named
    obtain ⟨hi, habout⟩ := List.mem_filter.mp hi
    rw [hitem] at hsame
    obtain ⟨hash, hparams⟩ := hsame.symm.exists_eq
    exact ⟨i, hi, params, hash, hcall, by simpa using habout, hparams⟩
  custodian i hi a item ha hitem := by
    obtain ⟨a', ha', hkeeps⟩ := h.record_since .refl (fun hstep => hstep.keepsTerms)
      (fun _ _ _ h₁ h₂ => h₁.trans h₂) i hi a ha
    have hsame := hkeeps.item
    rw [hitem] at hsame
    obtain ⟨hash, hitem'⟩ := hsame.exists_eq
    exact ⟨a', hash, ha', hitem'⟩
  traded := by
    rintro past i later rfl htrades a item ha hitem
    obtain ⟨t, t', hpast, hs, -⟩ := History.at_step h
    obtain ⟨hbefore, -, -, -, -⟩ := hs.returns
    have hstep := h.bookStep_of_mem (by simp) (i.about_of_trades htrades)
    obtain ⟨a₁, ha₁, hactive⟩ := hstep.active_of_trades htrades
    obtain rfl := Option.some.inj (ha.symm.trans ha₁)
    rw [hbefore] at ha
    exact (Run.attests_of_open hpast ha hitem (Or.inl hactive)).2
  digital a item ha hitem := (h.vouched a ha).digital item hitem

/-- The theorem at a sale of a physical item. -/
theorem attestedFirst_sale : ∃ (tr : List (Invocation ℕ)) (w : World Stage.host),
    Run Stage.host tr w ∧ ((w.storage.auctions 0).map fun a => (a.status, a.attested)) =
      some (.settled, true) ∧ AttestedFirst 0 tr w := by
  have hreplay : (replay Stage.start Stage.sale).map (fun r =>
      (r.2.storage.auctions 0).map fun a => (a.status, a.attested)) =
        some (some (.settled, true)) := by decide +kernel
  obtain ⟨tr, w, hrun, hend⟩ := exists_run_of_replay Stage.world_refl rfl hreplay
  exact ⟨tr, w, hrun, hend, hrun.attestedFirst 0⟩

end UrithiBidz
