import UrithiBidz.Book.Sealed
import UrithiBidz.Guarantees.Deadline
import UrithiBidz.Guarantees.Lifecycle

/-!
# Closing an auction is safe at any time

Anybody may close an auction, at any time and as often as they like. A call that has nothing
to do returns silently. A call that has something to do may still fail, in a sealed auction:
the finalization reads the record again and insists that the auction is active, that the
reveal phase is over, and that somebody has revealed. It never does fail
(`UrithiBidz.closeAuction_returns`), because of what the record of every auction keeps to:
the reveal phase ends before the deadline, and nobody has revealed in an auction that has not
been opened (`UrithiBidz.Life.closable`).

What a closing does is `UrithiBidz.ClosesSafely`. An auction that it has decided on is over,
and stays as it is however often it is closed again; `UrithiBidz.Run.closingSafe` is the
theorem about runs.
-/

namespace UrithiBidz

variable {Address : Type} [DecidableEq Address]

/-! ### The call returns -/

/-- **What an auction has to be for a closing to return.** -/
structure Auction.Closable (a : Auction Address) : Prop where
  /-- The reveal phase is over before the deadline. -/
  phases : a.format = .sealedBid → a.revealDeadline ≤ a.endTime
  /-- Nobody has revealed in an auction that has not been opened. -/
  unrevealed : a.status = .created → a.revealedBids = []

/-- **Closing returns**, at any time. -/
theorem closeAuction_returns {env : Env Address} {s : Storage Address} {id : U64}
    {a : Auction Address} (ha : s.auctions id = some a) (hc : a.Closable) :
    ∃ o, closeAuction env s id = .ok o := by
  simp only [closeAuction, unwrapOr_bind_eq_ok_iff, ha, Option.some.injEq, exists_eq_left']
  -- the checks in the order in which they are made
  by_cases hover : a.status = .ended ∨ a.status = .settled ∨ a.status = .cancelled
  · rw [if_pos hover]
    exact ⟨_, rfl⟩
  rw [if_neg hover]
  by_cases hearly : env.timestamp < a.endTime
  · rw [if_pos hearly]
    exact ⟨_, rfl⟩
  rw [if_neg hearly]
  by_cases hshut : a.status ≠ .active ∧ a.status ≠ .created
  · rw [if_pos hshut]
    exact ⟨_, rfl⟩
  rw [if_neg hshut]
  rcases hformat : a.format with _ | _ | _
  · rcases a.highestBidder with _ | winner
    · exact ⟨_, rfl⟩
    · exact ⟨_, rfl⟩
  · exact ⟨_, rfl⟩
  · by_cases hempty : a.revealedBids = []
    · exact ⟨_, if_pos hempty⟩
    · -- the finalization finds what it asks for
      obtain ⟨winner, hwinner⟩ := exists_highestEntry hempty
      have hactive : a.status = .active := by
        rcases hs : a.status with _ | _ | _ | _ | _
        · exact absurd (hc.unrevealed hs) hempty
        · rfl
        · exact absurd (Or.inl hs) hover
        · exact absurd (Or.inr (Or.inl hs)) hover
        · exact absurd (Or.inr (Or.inr hs)) hover
      have hdeadline : a.revealDeadline ≤ env.timestamp :=
        (hc.phases hformat).trans (Ranged.not_lt_iff.mp hearly)
      refine ⟨finalizeOutcome s id a winner, ?_⟩
      dsimp only
      rw [if_neg hempty]
      exact finalizeSealedAuction_eq_ok_iff.mpr
        ⟨a, winner, ha, ⟨hformat, hactive, hdeadline⟩, hwinner, rfl⟩

/-! ### What it does -/

/-- The auction has somebody to sell to: a highest bidder, or a revealed bid. -/
def Auction.Sells (a : Auction Address) : Prop :=
  a.format = .english ∧ a.highestBidder ≠ none ∨ a.format = .sealedBid ∧ a.revealedBids ≠ []

/-- **What a closing does**: nothing, or it decides on the auction. -/
structure ClosesSafely (env : Env Address) (s : Storage Address) (id : U64)
    (a : Auction Address) (o : Outcome Address) : Prop where
  /-- No token is moved. -/
  calls : o.calls = []
  /-- Nothing happens before the deadline, or when the auction is over. -/
  idle : env.timestamp < a.endTime ∨ a.status ∉ [.created, .active] → o = { storage := s }
  /-- After the deadline the auction has ended, if there is somebody to sell to, and is
  cancelled otherwise. -/
  decided : a.endTime ≤ env.timestamp → a.status ∈ [.created, .active] →
    ∃ a', o.storage.auctions id = some a' ∧
      (a.Sells → a'.status = .ended) ∧ (¬a.Sells → a'.status = .cancelled)

variable {env : Env Address} {s : Storage Address} {id : U64} {a : Auction Address}
  {o : Outcome Address}

/-- **However a closing goes, it does one of these.** -/
theorem Closes.closesSafely (h : Closes env s id a o) : ClosesSafely env s id a o := by
  -- a closing that decides comes after the deadline, on an auction that is not over
  have hdue : a.endTime ≤ env.timestamp → a.status ∈ [AuctionStatus.created, .active] →
      ¬(env.timestamp < a.endTime ∨ a.status ∉ [.created, .active]) := by
    rintro ht hs (hearly | hover)
    · exact absurd ht (not_le_of_gt hearly)
    · exact hover hs
  rcases h with hidle | ⟨hs, ht, hf, hw⟩ | ⟨hs, ht, hf, hr⟩ | ⟨hs, ht, hf, hd, hw⟩
  · refine ⟨rfl, fun _ => rfl, fun ht hs => absurd ?_ (hdue ht hs)⟩
    exact hidle.symm
  · refine ⟨rfl, fun hidle => absurd hidle (hdue ht hs), fun _ _ => ?_⟩
    refine ⟨_, congrArg Book.auction (Storage.book_setAuction_self s id _), fun _ => rfl, ?_⟩
    exact fun hno => absurd (Or.inl ⟨hf, by simp [hw]⟩) hno
  · refine ⟨rfl, fun hidle => absurd hidle (hdue ht hs), fun _ _ => ?_⟩
    refine ⟨_, congrArg Book.auction (Storage.book_setAuction_self s id _), ?_, fun _ => rfl⟩
    rintro (⟨henglish, hbidder⟩ | ⟨hsealed, hbids⟩)
    · exact absurd (hf henglish) hbidder
    · exact absurd (hr hsealed) hbids
  · refine ⟨rfl, fun hidle => absurd hidle (hdue ht (by simp [hs])), fun _ _ => ?_⟩
    refine ⟨_, congrArg Book.auction (Storage.book_setAuction_self _ id _), fun _ => rfl, ?_⟩
    refine fun hno => absurd (Or.inr ⟨hf, fun hempty => ?_⟩) hno
    rw [hempty] at hw
    cases hw

theorem eq_of_closeAuction_of_over (ha : s.auctions id = some a)
    (hover : a.status ∉ [.created, .active]) (h : closeAuction env s id = .ok o) :
    o = { storage := s } := by
  obtain ⟨a', ha', hcloses⟩ := closes_of_closeAuction h
  obtain rfl := Option.some.inj (ha.symm.trans ha')
  exact hcloses.closesSafely.idle (Or.inr hover)

/-! ### What every auction keeps to -/

variable {c : Call Address} {b b' : Book Address} {calls : List (TokenCall Address)}
  {me : Address} {tr : List (Invocation Address)}

/-- Nobody has committed to an auction that has not been opened. -/
def Book.UncommittedUntilOpen (b : Book Address) : Prop :=
  ∀ a, b.auction = some a → a.status = .created → ∀ x, b.commitments x = none

theorem BookStep.uncommittedUntilOpen (h : BookStep env id c b b' calls)
    (hblank : b.BlankPages) (hb : b.UncommittedUntilOpen) : b'.UncommittedUntilOpen := by
  intro a' ha' hs' x
  cases h with
  | create hnone => rw [hblank hnone]; rfl
  | withdraw => exact hb a' ha' hs' x
  | quiet ha hq =>
    obtain rfl := Option.some.inj ha'
    exact hb _ ha (hq.created_of_created hs') x
  | buy ha => rw [← Option.some.inj ha'] at hs'; cases hs'
  | finalize ha => rw [← Option.some.inj ha'] at hs'; cases hs'
  | firstBid ha ok => rw [← Option.some.inj ha'] at hs'; cases ok.status.symm.trans hs'
  | outbid ha ok => rw [← Option.some.inj ha'] at hs'; cases ok.status.symm.trans hs'
  | commit ha ok => rw [← Option.some.inj ha'] at hs'; cases ok.status.symm.trans hs'
  | reveal ha =>
    rw [← Option.some.inj ha'] at hs'
    exact hb _ ha hs' x
  | takeBack ha hc =>
    rw [← Option.some.inj ha'] at hs'
    cases (hb _ ha hs' _).symm.trans hc

/-- The reveal phase of a sealed auction is over before the deadline. -/
theorem BookStep.phases (h : BookStep env id c b b' calls)
    (hb : ∀ a, b.auction = some a → a.format = .sealedBid → a.revealDeadline ≤ a.endTime) :
    ∀ a', b'.auction = some a' → a'.format = .sealedBid → a'.revealDeadline ≤ a'.endTime := by
  intro a' ha' hf'
  rcases ha : b.auction with _ | a
  · obtain ⟨params, config, -, ok, rfl, -⟩ := h.of_none ha
    rw [← Option.some.inj ha'] at hf' ⊢
    exact (ok.sealed hf').2.2
  · have hterms := h.sameTerms_of_some ha ha'
    obtain ⟨a₂, ha₂, hlater⟩ := h.endTime_le ha
    obtain rfl := Option.some.inj (ha'.symm.trans ha₂)
    rw [hterms.revealDeadline]
    exact (hb a ha (hterms.format ▸ hf')).trans hlater

namespace Life

variable {p : Book Address × U64}

theorem uncommittedUntilOpen (h : Life me id tr p) : p.1.UncommittedUntilOpen := by
  refine induct (P := fun _ b _ => b.UncommittedUntilOpen) (fun _ _ ha => by cases ha) ?_ h
  intro tr b now env s c s' events calls value b' hl ih hstep _ _ _ _ _ _
  exact hstep.uncommittedUntilOpen hl.blankPages ih

/-- **Every auction can be closed.** -/
theorem closable (h : Life me id tr p) : ∀ a, p.1.auction = some a → a.Closable := by
  intro a ha
  refine ⟨?_, fun hcreated => List.eq_nil_iff_forall_not_mem.mpr fun e he => ?_⟩
  · refine induct (P := fun _ b _ => ∀ a, b.auction = some a → a.format = .sealedBid →
      a.revealDeadline ≤ a.endTime) (fun _ _ ha => by cases ha) ?_ h a ha
    intro tr b now env s c s' events calls value b' hl ih hstep _ _ _ _ _ _
    exact hstep.phases ih
  · -- whoever has revealed has a commitment
    have hrevealed := (h.consistent.listed a ha e).mp he
    have hcommitted := h.consistent.committed e.bidder (by simp [hrevealed])
    exact hcommitted (h.uncommittedUntilOpen a ha hcreated e.bidder)

end Life

/-! ### Along a run -/

variable {H : Host Address} {w : World H}

/-- **Closing is safe at any time**: in the state that a run has reached, and after a closing
in the run. -/
structure ClosingSafe {H : Host Address} (id : U64) (tr : List (Invocation Address))
    (w : World H) : Prop where
  /-- The call returns, at any time, and does what it should. -/
  returns : ∀ a, w.storage.auctions id = some a → ∀ env : Env Address,
    ∃ o, closeAuction env w.storage id = .ok o ∧ ClosesSafely env w.storage id a o
  /-- Once a closing has changed the status, closing the auction again changes nothing. -/
  final : ∀ past i later, tr = past ++ i :: later → i.call = .closeAuction id →
    (i.outcome.storage.auctions id).map (·.status) ≠ (i.before.auctions id).map (·.status) →
      (∀ j ∈ later, j.About id → j.call = .closeAuction id) →
        w.storage.book id = i.outcome.storage.book id ∧
          ∀ j ∈ later, j.About id → j.outcome = { storage := j.before }

/-- After a closing that changed the status, the auction is over. -/
theorem over_of_closeAuction (h : closeAuction env s id = .ok o)
    (hchanged : (o.storage.auctions id).map (·.status) ≠ (s.auctions id).map (·.status)) :
    ∃ a', o.storage.auctions id = some a' ∧ a'.status ∉ [.created, .active] := by
  obtain ⟨a, ha, hcloses⟩ := closes_of_closeAuction h
  have hsafe := hcloses.closesSafely
  by_cases hdue : a.endTime ≤ env.timestamp ∧ a.status ∈ [.created, .active]
  · obtain ⟨a', ha', hsold, hunsold⟩ := hsafe.decided hdue.1 hdue.2
    refine ⟨a', ha', ?_⟩
    by_cases hsells : a.Sells
    · simp [hsold hsells]
    · simp [hunsold hsells]
  · rw [hsafe.idle ?_] at hchanged
    · exact absurd rfl hchanged
    · by_cases hearly : env.timestamp < a.endTime
      · exact Or.inl hearly
      · exact Or.inr fun hs => hdue ⟨Ranged.not_lt_iff.mp hearly, hs⟩

/-- **Closing is safe at any time**, in any run. -/
theorem Run.closingSafe (h : Run H tr w) (id : U64) : ClosingSafe id tr w where
  returns a ha env := by
    obtain ⟨now, -, hlife⟩ := h.life id
    have hreturns : ∃ o, closeAuction env w.storage id = .ok o :=
      closeAuction_returns ha (hlife.closable a ha)
    obtain ⟨o, ho⟩ := hreturns
    obtain ⟨a', ha', hcloses⟩ := closes_of_closeAuction ho
    obtain rfl := Option.some.inj (ha.symm.trans ha')
    exact ⟨o, ho, hcloses.closesSafely⟩
  final := by
    rintro past i later rfl hcall hchanged honly
    obtain ⟨t, t', hpast, hs, hlater⟩ := History.at_step h
    obtain ⟨hbefore, hafter, hret, -, -⟩ := hs.returns
    rw [hcall] at hret
    obtain ⟨a, ha, hover⟩ := over_of_closeAuction hret hchanged
    rw [← hafter] at ha ⊢
    -- along the calls that follow, the book stays and the closings come to nothing
    refine History.invariant (P := fun tr' t₁ => (∀ j ∈ tr', j ∈ later) →
      t₁.storage.book id = t'.storage.book id ∧
        ∀ j ∈ tr', j.About id → j.outcome = { storage := j.before }) ?_ ?_ hlater fun j hj => hj
    · rintro _ rfl -
      exact ⟨rfl, fun j hj => absurd hj List.not_mem_nil⟩
    · intro tr' t₁ j t₂ _ ih hs hsub
      obtain ⟨hbook, hidle⟩ := ih fun k hk => hsub k (List.mem_append_left _ hk)
      obtain ⟨hbefore, hafter, hret, -, -⟩ := hs.returns
      have hj : j ∈ later := hsub j (by simp)
      have hnothing : j.About id → j.outcome = { storage := j.before } := by
        intro habout
        rw [honly j hj habout, hbefore] at hret
        rw [hbefore]
        exact eq_of_closeAuction_of_over ((congrArg Book.auction hbook).trans ha) hover hret
      refine ⟨?_, fun k hk habout => ?_⟩
      · rw [hafter, ← hbook, ← hbefore]
        by_cases habout : j.About id
        · rw [hnothing habout]
        · -- a call about another auction leaves this book alone
          exact h.frame (by simp [hj]) habout
      · rcases List.mem_append.mp hk with hk | hk
        · exact hidle k hk habout
        · obtain rfl := List.mem_singleton.mp hk
          exact hnothing habout

/-- Two bids are sealed and revealed; the auction is closed too early, in time, and again. -/
def Stage.closings : List (Tx ℕ × Call ℕ) :=
  Stage.opening .sealedBid Stage.painting ++
    [(Stage.signed 2 1, .activateAuction 0),
      (Stage.signed 3 (.of 2), .commitBid 0 3 (Stage.commitment (.of 100) 3) (.of 100)),
      (Stage.signed 4 (.of 2), .commitBid 0 4 (Stage.commitment (.of 50) 4) (.of 50)),
      (Stage.signed 3 (.of 11), .revealBid 0 3 (.of 100) (BytesN.replicate 32 0)),
      (Stage.signed 4 (.of 11), .revealBid 0 4 (.of 50) (BytesN.replicate 32 0)),
      (Stage.signed 5 (.of 29), .closeAuction 0),
      (Stage.signed 5 (.of 30), .closeAuction 0),
      (Stage.signed 5 (.of 31), .closeAuction 0)]

/-- The theorem at these closings: the loser is credited once. -/
theorem closingSafe_closings : ∃ (tr : List (Invocation ℕ)) (w : World Stage.host),
    Run Stage.host tr w ∧ (w.storage.auctions 0).map (·.status) = some .ended ∧
      w.storage.refund 0 4 = .of 50 ∧ ClosingSafe 0 tr w := by
  have hreplay : (replay Stage.start Stage.closings).map (fun r =>
      ((r.2.storage.auctions 0).map (·.status), r.2.storage.refund 0 4)) =
        some (some .ended, .of 50) := by decide +kernel
  obtain ⟨tr, w, hrun, hv⟩ := exists_run_of_replay Stage.world_refl rfl hreplay
  obtain ⟨hstatus, hrefund⟩ := Prod.mk.inj hv
  exact ⟨tr, w, hrun, hstatus, hrefund, hrun.closingSafe 0⟩

end UrithiBidz
