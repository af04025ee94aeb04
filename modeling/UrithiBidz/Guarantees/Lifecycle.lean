import UrithiBidz.Ledger.Replay

/-!
# The lifecycle of an auction

An auction is created, opened, closed and settled, or it is cancelled, and it never goes
back. `UrithiBidz.StatusMove` lists the moves. Seven entry points write a status and six of
them look at the old one first. The seventh is the attestation: `attest_physical_item` opens
the auction whatever has become of it, so the custodian of a physical item can reopen a sale
that is over, and `UrithiBidz.exists_reopened` is a run in which this happens.

That is the only way out. As long as attestations come before an auction is closed
(`UrithiBidz.Invocation.AttestsOpen`), every call makes one of the moves, an auction that is
over stays over, and it is settled at most once (`UrithiBidz.Run.lifecycleMonotone`).
-/

namespace UrithiBidz

variable {Address : Type} [DecidableEq Address]

/-! ### Moves of the status -/

/-- **What a call may do to the status of an auction.** -/
inductive StatusMove : AuctionStatus → AuctionStatus → Prop
  | stay (s : AuctionStatus) : StatusMove s s
  | opened : StatusMove .created .active
  | withdrawn : StatusMove .created .cancelled
  | closed : StatusMove .active .ended
  | cancelled : StatusMove .active .cancelled
  | settled : StatusMove .ended .settled

/-- What a status may have become after any number of calls. -/
def AuctionStatus.Reaches : AuctionStatus → AuctionStatus → Prop :=
  Relation.ReflTransGen StatusMove

namespace AuctionStatus.Reaches

theorem eq_settled {s : AuctionStatus} (h : Reaches .settled s) : s = .settled := by
  induction h with
  | refl => rfl
  | tail _ hs ih =>
    subst ih
    cases hs
    rfl

theorem eq_cancelled {s : AuctionStatus} (h : Reaches .cancelled s) : s = .cancelled := by
  induction h with
  | refl => rfl
  | tail _ hs ih =>
    subst ih
    cases hs
    rfl

theorem ended_or_settled {s : AuctionStatus} (h : Reaches .ended s) :
    s = .ended ∨ s = .settled := by
  induction h with
  | refl => exact Or.inl rfl
  | tail _ hs ih =>
    rcases ih with rfl | rfl
    · cases hs with
      | stay => exact Or.inl rfl
      | settled => exact Or.inr rfl
    · cases hs
      exact Or.inr rfl

end AuctionStatus.Reaches

/-! ### What a step does to the status -/

/-- The call is not an attestation of an auction that is closed or cancelled. -/
def Invocation.AttestsOpen (i : Invocation Address) : Prop :=
  match i.call with
  | .attestPhysicalItem id _ _ =>
    ∀ a ∈ i.before.auctions id, a.status = .created ∨ a.status = .active
  | _ => True

instance : (i : Invocation Address) → Decidable i.AttestsOpen
  | ⟨_, _, call, _⟩ => by
    induction call using Call.casesOn <;> dsimp only [Invocation.AttestsOpen] <;> infer_instance

/-- Nobody has bid on an auction that has not been opened. -/
def Book.UnbidUntilOpen (b : Book Address) : Prop :=
  ∀ a, b.auction = some a → a.status = .created → a.highestBidder = none

variable {env : Env Address} {id : U64} {c : Call Address} {b b' : Book Address}
  {calls : List (TokenCall Address)}

omit [DecidableEq Address] in
theorem QuietStep.created_of_created {a a' : Auction Address} (h : QuietStep env id c a a' calls)
    (hs : a'.status = .created) : a.status = .created := by
  cases h with
  | approve => exact hs
  | idle => exact hs
  | _ => cases hs

theorem BookStep.unbidUntilOpen (h : BookStep env id c b b' calls) (hb : b.UnbidUntilOpen) :
    b'.UnbidUntilOpen := by
  intro a' ha' hs'
  cases h with
  | create => rw [← Option.some.inj ha']; rfl
  | withdraw => exact hb a' ha' hs'
  | quiet ha hq =>
    obtain rfl := Option.some.inj ha'
    rw [hq.sameBids.highestBidder]
    exact hb _ ha (hq.created_of_created hs')
  | buy ha => rw [← Option.some.inj ha'] at hs'; cases hs'
  | finalize ha => rw [← Option.some.inj ha'] at hs'; cases hs'
  -- a bid or a commitment needs an auction that is active
  | firstBid ha ok =>
    rw [← Option.some.inj ha'] at hs'
    have hcon : AuctionStatus.active = .created := ok.status.symm.trans hs'
    cases hcon
  | outbid ha ok =>
    rw [← Option.some.inj ha'] at hs'
    have hcon : AuctionStatus.active = .created := ok.status.symm.trans hs'
    cases hcon
  | commit ha ok =>
    rw [← Option.some.inj ha'] at hs'
    have hcon : AuctionStatus.active = .created := ok.status.symm.trans hs'
    cases hcon
  | reveal ha =>
    rw [← Option.some.inj ha'] at hs' ⊢
    have hnone := hb _ ha hs'
    exact hnone
  | takeBack ha =>
    rw [← Option.some.inj ha'] at hs' ⊢
    have hnone := hb _ ha hs'
    exact hnone

theorem Life.unbidUntilOpen {me : Address} {tr : List (Invocation Address)}
    {p : Book Address × U64} (h : Life me id tr p) : p.1.UnbidUntilOpen := by
  refine induct (P := fun _ b _ => b.UnbidUntilOpen) (fun _ _ ha => by cases ha) ?_ h
  intro tr b now env s c s' events calls value b' _ ih hstep _ _ _ _ _ _
  exact hstep.unbidUntilOpen ih

omit [DecidableEq Address] in
/-- A quiet step makes one of the moves, an attestation of a closed auction apart. -/
theorem QuietStep.statusMove {a a' : Auction Address} (h : QuietStep env id c a a' calls)
    (hopen : a.status = .created → a.highestBidder = none)
    (hc : ∀ custodian hash, c = .attestPhysicalItem id custodian hash →
      a.status = .created ∨ a.status = .active) : StatusMove a.status a'.status := by
  cases h with
  | approve => exact .stay _
  | idle => exact .stay _
  | attest =>
    rcases hc _ _ rfl with hs | hs
    · rw [hs]
      exact .opened
    · rw [hs]
      exact .stay _
  | activate ok =>
    rw [ok.status]
    exact .opened
  | cancel ok =>
    rcases ok.status with hs | hs
    · rw [hs]
      exact .withdrawn
    · rw [hs]
      exact .cancelled
  | won hs _ _ hw =>
    -- an auction with a bidder has been opened
    have hactive : a.status = .active := by
      rcases List.mem_pair.mp hs with hcreated | hactive
      · rw [hopen hcreated] at hw
        cases hw
      · exact hactive
    rw [hactive]
    exact .closed
  | unsold hs =>
    rcases List.mem_pair.mp hs with hs | hs
    · rw [hs]
      exact .withdrawn
    · rw [hs]
      exact .cancelled
  | settle hs =>
    rw [hs]
    exact .settled

/-- **A step makes one of the moves**, an attestation of a closed auction apart. -/
theorem BookStep.statusMove (h : BookStep env id c b b' calls) {a : Auction Address}
    (ha : b.auction = some a) (hb : b.UnbidUntilOpen)
    (hc : ∀ custodian hash, c = .attestPhysicalItem id custodian hash →
      a.status = .created ∨ a.status = .active) :
    ∃ a', b'.auction = some a' ∧ StatusMove a.status a'.status := by
  cases h with
  | create hnone => rw [hnone] at ha; cases ha
  | withdraw => exact ⟨a, ha, .stay _⟩
  | quiet ha' hq =>
    obtain rfl := Option.some.inj (ha.symm.trans ha')
    exact ⟨_, rfl, hq.statusMove (hb a ha) hc⟩
  | firstBid ha' =>
    obtain rfl := Option.some.inj (ha.symm.trans ha')
    exact ⟨_, rfl, .stay _⟩
  | outbid ha' =>
    obtain rfl := Option.some.inj (ha.symm.trans ha')
    exact ⟨_, rfl, .stay _⟩
  | buy ha' ok =>
    obtain rfl := Option.some.inj (ha.symm.trans ha')
    refine ⟨_, rfl, ?_⟩
    rw [ok.status]
    exact .closed
  | commit ha' =>
    obtain rfl := Option.some.inj (ha.symm.trans ha')
    exact ⟨_, rfl, .stay _⟩
  | reveal ha' =>
    obtain rfl := Option.some.inj (ha.symm.trans ha')
    exact ⟨_, rfl, .stay _⟩
  | takeBack ha' =>
    obtain rfl := Option.some.inj (ha.symm.trans ha')
    exact ⟨_, rfl, .stay _⟩
  | finalize ha' hs =>
    obtain rfl := Option.some.inj (ha.symm.trans ha')
    refine ⟨_, rfl, ?_⟩
    rw [hs]
    exact .closed

/-! ### Along a run -/

/-- **The lifecycle of an auction is monotone** along a run: every call makes one of the
moves, what is over stays over, and the auction is settled at most once. -/
structure LifecycleMonotone {H : Host Address} (id : U64) (tr : List (Invocation Address))
    (w : World H) : Prop where
  /-- Every call makes one of the moves. -/
  moves : ∀ i ∈ tr, ∀ a, i.before.auctions id = some a →
    ∃ a', i.outcome.storage.auctions id = some a' ∧ StatusMove a.status a'.status
  /-- A settled or cancelled auction stays so. -/
  final : ∀ i ∈ tr, ∀ a, i.outcome.storage.auctions id = some a →
    a.status = .settled ∨ a.status = .cancelled →
      ∃ a', w.storage.auctions id = some a' ∧ a'.status = a.status
  /-- A sale that has ended is not reopened. -/
  closed : ∀ i ∈ tr, ∀ a, i.outcome.storage.auctions id = some a → a.status = .ended →
    ∃ a', w.storage.auctions id = some a' ∧ (a'.status = .ended ∨ a'.status = .settled)
  /-- It is settled at most once. -/
  settles_once : tr.Pairwise fun i j => i.call = .settleAuction id → j.call ≠ .settleAuction id

variable {H : Host Address} {tr : List (Invocation Address)} {w w' : World H}

/-- A step of a run makes one of the moves. -/
theorem Run.statusMove (h : Run H tr w) {i : Invocation Address} (hs : Step H w i w')
    (hc : i.AttestsOpen) {a : Auction Address} (ha : w.storage.auctions id = some a) :
    ∃ a', w'.storage.auctions id = some a' ∧ StatusMove a.status a'.status := by
  have hsnoc : Run H (tr ++ [i]) w' := .snoc h hs
  obtain ⟨hbefore, hafter, hret, -, -⟩ := hs.returns
  rw [← hbefore] at ha
  rw [hafter]
  by_cases hid : i.About id
  · obtain ⟨hstep, -⟩ := invoke_book (hbefore ▸ h.fresh) hret hid
    obtain ⟨now, -, hlife⟩ := h.life id
    rw [← hbefore] at hlife
    refine hstep.statusMove ha hlife.unbidUntilOpen ?_
    intro custodian hash hcall
    rw [Invocation.AttestsOpen, hcall] at hc
    exact hc a ha
  · have hsame := hsnoc.frame (List.mem_append_right _ (List.mem_singleton_self i)) hid
    exact ⟨a, (congrArg Book.auction hsame).trans ha, .stay _⟩

/-- What a status was at some point of a run, it reaches. -/
theorem Run.reaches (h : Run H tr w) (hc : ∀ i ∈ tr, i.AttestsOpen) :
    ∀ i ∈ tr, ∀ a, i.outcome.storage.auctions id = some a →
      ∃ a', w.storage.auctions id = some a' ∧ a.status.Reaches a'.status := by
  induction h with
  | start => exact fun i hi => absurd hi (by simp)
  | @snoc tr w w' j h hs ih =>
    intro i hi a ha
    rcases List.mem_append.mp hi with hi | hi
    · obtain ⟨a₁, ha₁, hreach⟩ := ih (fun i hi => hc i (List.mem_append_left _ hi)) i hi a ha
      obtain ⟨a', ha', hmove⟩ := Run.statusMove h hs (hc j (by simp)) ha₁
      exact ⟨a', ha', hreach.tail hmove⟩
    · obtain rfl : i = j := by simpa using hi
      rw [hs.returns.2.1]
      exact ⟨a, ha, .refl⟩

/-- An auction that was settled at some point of a run is settled. -/
theorem Run.settled_of_mem (h : Run H tr w) (hc : ∀ i ∈ tr, i.AttestsOpen)
    {i : Invocation Address} (hi : i ∈ tr) (hcall : i.call = .settleAuction id) :
    ∃ a, w.storage.auctions id = some a ∧ a.status = .settled := by
  have habout : i.About id := by rw [Invocation.About, hcall]; rfl
  obtain ⟨past, t, t', hpast, hs, -⟩ := h.of_mem hi
  obtain ⟨hbefore, -, hret, -, -⟩ := hs.returns
  obtain ⟨hstep, -⟩ := invoke_book (hbefore ▸ Run.fresh hpast) hret habout
  rw [hcall] at hstep
  have hafter : ∃ a, i.outcome.storage.auctions id = some a ∧ a.status = .settled := by
    generalize i.outcome.calls = calls at hstep
    generalize hb' : i.outcome.storage.book id = b' at hstep
    cases hstep with
    | quiet ha hq =>
      cases hq
      exact ⟨_, congrArg Book.auction hb', rfl⟩
  obtain ⟨a, ha, hsettled⟩ := hafter
  obtain ⟨a', ha', hreach⟩ := h.reaches hc i hi a ha
  rw [hsettled] at hreach
  exact ⟨a', ha', hreach.eq_settled⟩

/-- **The lifecycle is monotone in every run whose attestations come in time.** -/
theorem Run.lifecycleMonotone (h : Run H tr w) (hc : ∀ i ∈ tr, i.AttestsOpen) (id : U64) :
    LifecycleMonotone id tr w where
  moves := by
    intro i hi a ha
    obtain ⟨past, t, t', hpast, hs, -⟩ := h.of_mem hi
    obtain ⟨hbefore, hafter, -, -, -⟩ := hs.returns
    rw [hbefore] at ha
    rw [← hafter]
    exact Run.statusMove hpast hs (hc i hi) ha
  final := by
    intro i hi a ha hover
    obtain ⟨a', ha', hreach⟩ := h.reaches hc i hi a ha
    refine ⟨a', ha', ?_⟩
    rcases hover with hs | hs
    · rw [hs] at hreach ⊢
      exact hreach.eq_settled
    · rw [hs] at hreach ⊢
      exact hreach.eq_cancelled
  closed := by
    intro i hi a ha hs
    obtain ⟨a', ha', hreach⟩ := h.reaches hc i hi a ha
    rw [hs] at hreach
    exact ⟨a', ha', hreach.ended_or_settled⟩
  settles_once := by
    have hrestrict := h.restrict hc
    refine hrestrict.pairwise ?_
    rintro past t j t' hpast ⟨-, hs⟩ i hi hcall hcall'
    have hrun : Run H past t := hpast.mono fun _ _ _ hstep => hstep.2
    have hall : ∀ i ∈ past, i.AttestsOpen := fun i hi => by
      obtain ⟨_, _, _, _, ⟨hattests, -⟩, -⟩ := hpast.of_mem hi
      exact hattests
    obtain ⟨a, ha, hsettled⟩ := hrun.settled_of_mem hall hi hcall
    -- settling needs an auction that has ended
    obtain ⟨hbefore, -, hret, -, -⟩ := hs.returns
    rw [hcall', hbefore] at hret
    obtain ⟨a', ha', hended, -⟩ := settleAuction_eq_ok_iff.mp hret
    rw [ha] at ha'
    rw [← Option.some.inj ha', hsettled] at hended
    cases hended

/-- A physical item is attested, sold, closed and settled. -/
def Stage.sale : List (Tx ℕ × Call ℕ) :=
  Stage.opening .english Stage.mask ++
    [(Stage.signed 5 1, .attestPhysicalItem 0 5 (BytesN.replicate 32 1)),
      (Stage.signed 3 (.of 2), .placeBid 0 3 (.of 100)),
      (Stage.signed 4 (.of 400), .closeAuction 0),
      (Stage.signed 4 (.of 401), .settleAuction 0)]

/-- The theorem at a whole sale. -/
theorem lifecycleMonotone_sale : ∃ (tr : List (Invocation ℕ)) (w : World Stage.host),
    Run Stage.host tr w ∧ (w.storage.auctions 0).map (·.status) = some .settled ∧
      LifecycleMonotone 0 tr w := by
  have hreplay : (replay Stage.start Stage.sale).map (fun r =>
      ((r.2.storage.auctions 0).map (·.status), decide (∀ i ∈ r.1, i.AttestsOpen))) =
        some (some .settled, true) := by decide +kernel
  obtain ⟨tr, w, hrun, hv⟩ := exists_run_of_replay Stage.world_refl rfl hreplay
  obtain ⟨hs, hc⟩ := Prod.mk.inj hv
  exact ⟨tr, w, hrun, hs, hrun.lifecycleMonotone (of_decide_eq_true hc) 0⟩

/-- **A settled auction can be reopened**: once it is settled, the custodian attests again. -/
theorem exists_reopened : ¬∀ (tr : List (Invocation ℕ)) (w : World Stage.host),
    Run Stage.host tr w → LifecycleMonotone 0 tr w := by
  intro hclaim
  have hreplay : (replay Stage.start (Stage.sale ++
      [(Stage.signed 5 (.of 402), .attestPhysicalItem 0 5 (BytesN.replicate 32 1))])).map
        (fun r => ((r.2.storage.auctions 0).map (·.status), r.1.any fun i =>
          (i.outcome.storage.auctions 0).map (·.status) = some .settled)) =
        some (some .active, true) := by decide +kernel
  obtain ⟨tr, w, hrun, hv⟩ := exists_run_of_replay Stage.world_refl rfl hreplay
  obtain ⟨hactive, hany⟩ := Prod.mk.inj hv
  obtain ⟨i, hi, hsettled⟩ := List.any_eq_true.mp hany
  obtain ⟨a, ha, hs⟩ := Option.map_eq_some_iff.mp (of_decide_eq_true hsettled)
  obtain ⟨a', ha', hsame⟩ := (hclaim tr w hrun).final i hi a ha (Or.inl hs)
  rw [ha', Option.map_some, hsame, hs] at hactive
  cases hactive

end UrithiBidz
