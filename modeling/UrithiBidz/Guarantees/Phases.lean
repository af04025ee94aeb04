import UrithiBidz.Ledger.Replay

/-!
# The phases of a sealed auction

Bids are committed in a first phase, revealed in a second, and deposits that were not
revealed are taken back after that. What keeps the phases apart is a comparison with a
deadline in each of four entry points; what keeps a bidder from doing anything twice is the
presence of a key, and one of these keys is removed when a deposit is taken back. The two
have to work together: after a refund nothing but the deadline stops a new commitment.

Along a life, every call is in its phase (`UrithiBidz.Life.inPhase`) and leaves its trace in
the keys (`UrithiBidz.Life.keyed`). Together they give `UrithiBidz.Run.sealedPhases`: every
bidder commits, reveals and is refunded at most once, never reveals and is refunded, all
commitments come before all reveals and these before all refunds and before the end, and a
refund pays exactly what was deposited.
-/

namespace UrithiBidz

variable {Address : Type} [DecidableEq Address]

/-! ### What a call is to a sealed auction -/

/-- The call commits a bid of the bidder, with the given deposit. -/
def Invocation.Deposits (id : U64) (x : Address) (amount : I128) (i : Invocation Address) : Prop :=
  ∃ commitment, i.call = .commitBid id x commitment amount

/-- The call commits a bid of the bidder. -/
def Invocation.Commits (id : U64) (x : Address) (i : Invocation Address) : Prop :=
  ∃ amount, i.Deposits id x amount

/-- The call reveals the bid of the bidder. -/
def Invocation.Reveals (id : U64) (x : Address) (i : Invocation Address) : Prop :=
  ∃ amount salt, i.call = .revealBid id x amount salt

/-- The call takes back the deposit of the bidder. -/
def Invocation.TakesBack (id : U64) (x : Address) (i : Invocation Address) : Prop :=
  i.call = .refundUnrevealed id x

/-- The call ends a sealed auction. -/
def Invocation.Finalizes (id : U64) (i : Invocation Address) : Prop :=
  i.call = .closeAuction id ∧ ∃ a a', i.before.auctions id = some a ∧
    i.outcome.storage.auctions id = some a' ∧ a.format = .sealedBid ∧
      a.status ≠ .ended ∧ a'.status = .ended

/-! ### Every call in its phase -/

/-- **The phase of a call** of a sealed auction, if it is one that has a phase. -/
structure Auction.InPhase (a : Auction Address) (id : U64) (i : Invocation Address) : Prop where
  commits : ∀ x, i.Commits id x →
    a.format = .sealedBid ∧ i.env.timestamp < a.commitDeadline
  reveals : ∀ x, i.Reveals id x → a.format = .sealedBid ∧
    a.commitDeadline ≤ i.env.timestamp ∧ i.env.timestamp < a.revealDeadline
  takesBack : ∀ x, i.TakesBack id x → a.format = .sealedBid ∧
    a.revealDeadline ≤ i.env.timestamp
  finalizes : i.Finalizes id → a.format = .sealedBid ∧ a.revealDeadline ≤ i.env.timestamp

omit [DecidableEq Address] in
theorem Auction.InPhase.of_sameTerms {a a' : Auction Address} {id : U64}
    {i : Invocation Address} (h : a.InPhase id i) (hterms : a.SameTerms a') :
    a'.InPhase id i := by
  refine ⟨?_, ?_, ?_, ?_⟩
  · rw [hterms.format, hterms.commitDeadline]
    exact h.commits
  · rw [hterms.format, hterms.commitDeadline, hterms.revealDeadline]
    exact h.reveals
  · rw [hterms.format, hterms.revealDeadline]
    exact h.takesBack
  · rw [hterms.format, hterms.revealDeadline]
    exact h.finalizes

variable {env : Env Address} {id : U64} {c : Call Address} {b b' : Book Address}
  {calls : List (TokenCall Address)} {me : Address}

/-- **A step is in its phase.** -/
theorem BookStep.inPhase (h : BookStep env id c b b' calls) {s s' : Storage Address}
    {events : List (Event Address)} {value : Value} (hs : s.book id = b) (hs' : s'.book id = b') :
    ∃ a, b'.auction = some a ∧ a.InPhase id ⟨env, s, c, ⟨s', events, calls, value⟩⟩ := by
  obtain ⟨a', ha'⟩ := Option.isSome_iff_exists.mp h.isSome
  refine ⟨a', ha', ?_, ?_, ?_, ?_⟩
  · rintro x ⟨amount, commitment, rfl⟩
    cases h with
    | commit ha ok =>
      rw [← Option.some.inj ha']
      exact ⟨ok.format, ok.before_deadline⟩
    | quiet ha hq => cases hq
  · rintro x ⟨amount, salt, rfl⟩
    cases h with
    | reveal ha hc ok =>
      rw [← Option.some.inj ha']
      exact ⟨ok.format, ok.commit_over, ok.before_deadline⟩
    | quiet ha hq => cases hq
  · rintro x ⟨⟩
    cases h with
    | takeBack ha hc ok =>
      rw [← Option.some.inj ha']
      exact ⟨ok.format, ok.reveal_over⟩
    | quiet ha hq => cases hq
  · rintro ⟨⟨⟩, a₀, a₁, ha₀, ha₁, hsealed, hopen, hended⟩
    have hb : b.auction = some a₀ := by rw [← hs]; exact ha₀
    have hb' : b'.auction = some a₁ := by rw [← hs']; exact ha₁
    cases h with
    | finalize ha _ _ hf hd =>
      rw [← Option.some.inj ha']
      exact ⟨hf, hd⟩
    | quiet ha hq =>
      -- the other ways to close end no sealed auction
      obtain rfl := Option.some.inj (hb.symm.trans ha)
      obtain rfl := Option.some.inj hb'
      cases hq with
      | idle => exact absurd hended hopen
      | won _ _ hf => cases hsealed.symm.trans hf
      | unsold => cases hended

namespace Life

variable {tr : List (Invocation Address)} {p : Book Address × U64}

/-- **Every call of a life is in its phase.** -/
theorem inPhase (h : Life me id tr p) :
    ∀ i ∈ tr, ∃ a, p.1.auction = some a ∧ a.InPhase id i := by
  refine induct (P := fun tr b _ => ∀ i ∈ tr, ∃ a, b.auction = some a ∧ a.InPhase id i)
    (fun _ i hi => absurd hi List.not_mem_nil) ?_ h
  intro tr b now env s c s' events calls value b' hl ih hstep _ _ _ _ hbefore hafter i hi
  rcases List.mem_append.mp hi with hi | hi
  · obtain ⟨a, ha, hphase⟩ := ih i hi
    obtain ⟨a', ha', hterms⟩ := hstep.sameTerms ha
    exact ⟨a', ha', hphase.of_sameTerms hterms⟩
  · rw [List.mem_singleton.mp hi]
    exact hstep.inPhase hbefore hafter

/-- After a refund it is too late to commit. -/
theorem not_commit_of_takesBack (h : Life me id tr p) {i : Invocation Address} (hi : i ∈ tr)
    {x : Address} (hback : i.TakesBack id x) {a : Auction Address} (ha : p.1.auction = some a)
    {now : U64} (hnow : p.2 ≤ now) : a.commitDeadline ≤ now := by
  obtain ⟨a', ha', hphase⟩ := h.inPhase i hi
  obtain rfl := Option.some.inj (ha.symm.trans ha')
  obtain ⟨hf, hover⟩ := hphase.takesBack x hback
  have hdeadlines := (h.validTerms a ha).sealed hf
  have htime := (h.time_le i hi).trans hnow
  rw [Ranged.le_iff] at hover htime ⊢
  omega

end Life

/-! ### Every call in the keys -/

/-- **What the calls of a life leave in the keys.** -/
structure Book.Keyed (b : Book Address) (id : U64) (tr : List (Invocation Address)) : Prop where
  /-- A commitment stays until it is taken back. -/
  commits : ∀ x, ∀ i ∈ tr, i.Commits id x →
    b.commitments x ≠ none ∨ ∃ j ∈ tr, j.TakesBack id x
  /-- A revealed bid stays. -/
  reveals : ∀ x, ∀ i ∈ tr, i.Reveals id x → b.revealed x ≠ none
  /-- A commitment that was taken back is gone. -/
  takesBack : ∀ x, ∀ i ∈ tr, i.TakesBack id x → b.commitments x = none
  /-- Every commitment was made, and paid for. -/
  paid : ∀ x c a, b.commitments x = some c → b.auction = some a → ∃ i ∈ tr,
    i.Deposits id x c.amount ∧
      i.outcome.calls = [.transfer a.paymentToken x i.env.currentContractAddress c.amount]

/-- The call is one of the three that touch the keys. -/
def Call.handlesSealed : Call Address → Bool
  | .commitBid .. => true
  | .revealBid .. => true
  | .refundUnrevealed .. => true
  | _ => false

omit [DecidableEq Address] in
theorem Invocation.not_of_not_handlesSealed {i : Invocation Address}
    (h : i.call.handlesSealed = false) (x : Address) :
    ¬i.Commits id x ∧ ¬i.Reveals id x ∧ ¬i.TakesBack id x := by
  refine ⟨?_, ?_, ?_⟩
  · rintro ⟨amount, commitment, hcall⟩
    rw [hcall] at h
    cases h
  · rintro ⟨amount, salt, hcall⟩
    rw [hcall] at h
    cases h
  · intro hcall
    rw [show i.call = _ from hcall] at h
    cases h

omit [DecidableEq Address] in
/-- **One more call**: what becomes of the keys there are, and what the call leaves in them. -/
theorem Book.Keyed.snoc {tr : List (Invocation Address)} (h : b.Keyed id tr)
    {i : Invocation Address}
    (hkept : ∀ x, b.commitments x ≠ none → b'.commitments x ≠ none ∨ i.TakesBack id x)
    (hcommit : ∀ x, i.Commits id x → b'.commitments x ≠ none)
    (hrevealed : ∀ x, b.revealed x ≠ none → b'.revealed x ≠ none)
    (hreveal : ∀ x, i.Reveals id x → b'.revealed x ≠ none)
    (hgone : ∀ x, ∀ j ∈ tr, j.TakesBack id x → b'.commitments x = none)
    (hback : ∀ x, i.TakesBack id x → b'.commitments x = none)
    (hpaid : ∀ x c a, b'.commitments x = some c → b'.auction = some a →
      ∃ j ∈ tr ++ [i], j.Deposits id x c.amount ∧
        j.outcome.calls = [.transfer a.paymentToken x j.env.currentContractAddress c.amount]) :
    b'.Keyed id (tr ++ [i]) := by
  refine ⟨fun x j hj hcommits => ?_, fun x j hj hreveals => ?_, fun x j hj hbacks => ?_, hpaid⟩
  · rcases List.mem_append.mp hj with hj | hj
    · rcases h.commits x j hj hcommits with hkey | ⟨k, hk, hkback⟩
      · refine (hkept x hkey).imp_right fun hlast => ?_
        exact ⟨i, List.mem_append_right _ (List.mem_singleton_self i), hlast⟩
      · exact Or.inr ⟨k, List.mem_append_left _ hk, hkback⟩
    · rw [List.mem_singleton.mp hj] at hcommits
      exact Or.inl (hcommit x hcommits)
  · rcases List.mem_append.mp hj with hj | hj
    · exact hrevealed x (h.reveals x j hj hreveals)
    · rw [List.mem_singleton.mp hj] at hreveals
      exact hreveal x hreveals
  · rcases List.mem_append.mp hj with hj | hj
    · exact hgone x j hj hbacks
    · rw [List.mem_singleton.mp hj] at hbacks
      exact hback x hbacks

omit [DecidableEq Address] in
theorem Book.Keyed.paid_snoc {tr : List (Invocation Address)} (h : b.Keyed id tr)
    (i : Invocation Address) {x : Address} {c : BidCommitment Address} {a : Auction Address}
    (hc : b.commitments x = some c) (ha : b.auction = some a) {token : Address}
    (htoken : token = a.paymentToken) : ∃ j ∈ tr ++ [i], j.Deposits id x c.amount ∧
      j.outcome.calls = [.transfer token x j.env.currentContractAddress c.amount] := by
  subst htoken
  obtain ⟨j, hj, hdeposit, hcalls⟩ := h.paid x c a hc ha
  exact ⟨j, List.mem_append_left _ hj, hdeposit, hcalls⟩

omit [DecidableEq Address] in
/-- A call that does not touch the keys leaves them as they are. -/
theorem Book.Keyed.of_eq {tr : List (Invocation Address)} (h : b.Keyed id tr)
    {i : Invocation Address} {a a' : Auction Address} (ha : b.auction = some a)
    (ha' : b'.auction = some a') (htoken : a'.paymentToken = a.paymentToken)
    (hcommitments : b'.commitments = b.commitments) (hrevealed : b'.revealed = b.revealed)
    (hcall : i.call.handlesSealed = false) : b'.Keyed id (tr ++ [i]) := by
  have hnone : ∀ x, ¬i.Commits id x ∧ ¬i.Reveals id x ∧ ¬i.TakesBack id x :=
    Invocation.not_of_not_handlesSealed hcall
  refine h.snoc ?_ (fun x hcon => absurd hcon (hnone x).1) ?_
    (fun x hcon => absurd hcon (hnone x).2.1) ?_ (fun x hcon => absurd hcon (hnone x).2.2) ?_
  · rw [hcommitments]
    exact fun x hkey => Or.inl hkey
  · rw [hrevealed]
    exact fun x hkey => hkey
  · rw [hcommitments]
    exact h.takesBack
  · intro x c a₁ hc ha₁
    obtain rfl := Option.some.inj (ha'.symm.trans ha₁)
    rw [hcommitments] at hc
    exact h.paid_snoc i hc ha htoken

/-- A commitment is made. -/
theorem Book.Keyed.commit {tr : List (Invocation Address)} (h : b.Keyed id tr)
    {a : Auction Address} (ha : b.auction = some a) {x : Address} {commitment : BytesN 32}
    {amount : I128} (hback : ∀ i ∈ tr, ¬i.TakesBack id x) {s s' : Storage Address}
    {events : List (Event Address)} {value : Value} (count : U64) :
    ((b.setCommitment x (some (commitmentRecord env x commitment amount))).setAuction
        { a with bidderCount := count }).Keyed id
      (tr ++ [⟨env, s, .commitBid id x commitment amount,
        ⟨s', events, [lockBid env a.paymentToken x amount], value⟩⟩]) := by
  refine h.snoc (fun y hkey => Or.inl ?_) ?_ (fun y hkey => hkey) ?_ (fun y j hj hbacks => ?_) ?_ ?_
  · rw [Book.setAuction_commitments, Book.setCommitment_commitments, Function.update_apply]
    split
    · exact nofun
    · exact hkey
  · rintro y ⟨_, _, hcall⟩
    cases hcall
    simp
  · rintro y ⟨_, _, hcall⟩
    cases hcall
  · -- who took a deposit back cannot commit again
    have hy : y ≠ x := fun hcon => hback j hj (hcon ▸ hbacks)
    rw [Book.setAuction_commitments, Book.setCommitment_commitments, Function.update_of_ne hy]
    exact h.takesBack y j hj hbacks
  · rintro y ⟨⟩
  · rintro y c a' hc ⟨⟩
    rw [Book.setAuction_commitments, Book.setCommitment_commitments] at hc
    by_cases hy : y = x
    · subst hy
      rw [Function.update_self] at hc
      obtain rfl := Option.some.inj hc
      exact ⟨_, List.mem_append_right _ (List.mem_singleton_self _), ⟨commitment, rfl⟩, rfl⟩
    · rw [Function.update_of_ne hy] at hc
      exact h.paid_snoc _ hc ha rfl

/-- A bid is revealed. -/
theorem Book.Keyed.reveal {tr : List (Invocation Address)} (h : b.Keyed id tr)
    {a : Auction Address} (ha : b.auction = some a) {x : Address} {amount : I128}
    {salt : BytesN 32} (e : SealedBidEntry Address) {o : Outcome Address} {s : Storage Address} :
    ((b.setAuction (a.withReveal e)).setRevealed x e).Keyed id
      (tr ++ [⟨env, s, .revealBid id x amount salt, o⟩]) := by
  refine h.snoc (fun y hkey => Or.inl hkey) ?_ (fun y hkey => ?_) ?_ h.takesBack ?_ ?_
  · rintro y ⟨_, _, hcall⟩
    cases hcall
  · rw [Book.setRevealed_revealed, Function.update_apply]
    split
    · exact nofun
    · exact hkey
  · rintro y ⟨_, _, hcall⟩
    cases hcall
    simp
  · rintro y ⟨⟩
  · rintro y c a' hc ⟨⟩
    exact h.paid_snoc _ hc ha rfl

/-- A deposit is taken back. -/
theorem Book.Keyed.takeBack {tr : List (Invocation Address)} (h : b.Keyed id tr)
    {a : Auction Address} (ha : b.auction = some a) {x : Address} {o : Outcome Address}
    {s : Storage Address} :
    ((b.setCommitment x none).setAuction a.withoutBidder).Keyed id
      (tr ++ [⟨env, s, .refundUnrevealed id x, o⟩]) := by
  have hcommitments : ((b.setCommitment x none).setAuction a.withoutBidder).commitments =
      Function.update b.commitments x none := rfl
  refine h.snoc (fun y hkey => ?_) ?_ (fun y hkey => hkey) ?_ (fun y j hj hbacks => ?_) ?_ ?_
  · rw [hcommitments]
    by_cases hy : y = x
    · subst hy
      exact Or.inr rfl
    · rw [Function.update_of_ne hy]
      exact Or.inl hkey
  · rintro y ⟨_, _, hcall⟩
    cases hcall
  · rintro y ⟨_, _, hcall⟩
    cases hcall
  · rw [hcommitments, Function.update_apply, h.takesBack y j hj hbacks, ite_self]
  · rintro y ⟨⟩
    rw [hcommitments, Function.update_self]
  · rintro y c a' hc ⟨⟩
    rw [hcommitments] at hc
    by_cases hy : y = x
    · subst hy
      rw [Function.update_self] at hc
      cases hc
    · rw [Function.update_of_ne hy] at hc
      exact h.paid_snoc _ hc ha rfl

/-- **Every call of a life leaves its trace in the keys.** -/
theorem Life.keyed {tr : List (Invocation Address)} {p : Book Address × U64}
    (h : Life me id tr p) : p.1.Keyed id tr := by
  refine induct (P := fun tr b _ => b.Keyed id tr) ?_ ?_ h
  · intro now
    refine ⟨fun _ _ hi => absurd hi List.not_mem_nil, fun _ _ hi => absurd hi List.not_mem_nil,
      fun _ _ hi => absurd hi List.not_mem_nil, fun _ _ _ hc => by cases hc⟩
  · intro tr b now env s c s' events calls value b' hl ih hstep _ _ htime _ _ _
    cases hstep with
    | create hnone =>
      -- nothing can have happened before
      obtain ⟨rfl, hblank⟩ := hl.unborn hnone
      rw [show b = Book.blank from hblank]
      refine ⟨?_, ?_, ?_, fun _ _ _ hc => by cases hc⟩
      · intro x i hi hcommits
        rw [List.mem_singleton.mp hi] at hcommits
        exact absurd hcommits (Invocation.not_of_not_handlesSealed rfl x).1
      · intro x i hi hreveals
        rw [List.mem_singleton.mp hi] at hreveals
        exact absurd hreveals (Invocation.not_of_not_handlesSealed rfl x).2.1
      · intro x i hi hback
        rw [List.mem_singleton.mp hi] at hback
        exact absurd hback (Invocation.not_of_not_handlesSealed rfl x).2.2
    | quiet ha hq =>
      refine ih.of_eq ha rfl hq.sameBids.paymentToken rfl rfl ?_
      cases hq <;> rfl
    | firstBid ha => exact ih.of_eq ha rfl rfl rfl rfl rfl
    | outbid ha => exact ih.of_eq ha rfl rfl rfl rfl rfl
    | buy ha => exact ih.of_eq ha rfl rfl rfl rfl rfl
    | withdraw ha => exact ih.of_eq ha ha rfl rfl rfl rfl
    | finalize ha => exact ih.of_eq ha rfl rfl (by simp) (by simp) rfl
    | commit ha ok =>
      refine ih.commit ha (fun i hi hback => ?_) _
      have hlate := hl.not_commit_of_takesBack hi hback ha htime
      have hearly := ok.before_deadline
      rw [Ranged.le_iff] at hlate
      rw [Ranged.lt_iff] at hearly
      omega
    | reveal ha => exact ih.reveal ha _
    | takeBack ha => exact ih.takeBack ha

/-! ### Along a run -/

/-- **The phases of a sealed auction are kept** in the calls of a run. -/
structure SealedPhases (id : U64) (tr : List (Invocation Address)) : Prop where
  /-- The calls are in the order of time. -/
  in_order : tr.Pairwise fun i j => i.env.timestamp ≤ j.env.timestamp
  /-- Nobody commits twice. -/
  commits_once : ∀ x, tr.Pairwise fun i j => i.Commits id x → ¬j.Commits id x
  /-- Nobody reveals twice. -/
  reveals_once : ∀ x, tr.Pairwise fun i j => i.Reveals id x → ¬j.Reveals id x
  /-- Nobody takes a deposit back twice. -/
  refunds_once : ∀ x, tr.Pairwise fun i j => i.TakesBack id x → ¬j.TakesBack id x
  /-- Nobody reveals and takes the deposit back. -/
  exclusive : ∀ x, ∀ i ∈ tr, ∀ j ∈ tr, i.Reveals id x → ¬j.TakesBack id x
  /-- All commitments are before all reveals. -/
  commit_before_reveal : ∀ x y, ∀ i ∈ tr, ∀ j ∈ tr, i.Commits id x → j.Reveals id y →
    i.env.timestamp < j.env.timestamp
  /-- All reveals are before all refunds. -/
  reveal_before_refund : ∀ x y, ∀ i ∈ tr, ∀ j ∈ tr, i.Reveals id x → j.TakesBack id y →
    i.env.timestamp < j.env.timestamp
  /-- All reveals are before the end. -/
  reveal_before_finalization : ∀ x, ∀ i ∈ tr, ∀ j ∈ tr, i.Reveals id x → j.Finalizes id →
    i.env.timestamp < j.env.timestamp
  /-- A refund pays what the bidder deposited. -/
  refund_exact : ∀ x, ∀ j ∈ tr, j.TakesBack id x → ∃ i ∈ tr, ∃ amount token,
    i.Deposits id x amount ∧
      i.outcome.calls = [.transfer token x i.env.currentContractAddress amount] ∧
        j.outcome.calls = [.transfer token j.env.currentContractAddress x amount]

namespace Life

variable {tr : List (Invocation Address)} {p p' : Book Address × U64} {i j : Invocation Address}

/-- A call of a life that comes after a commitment does not commit for the same bidder. -/
theorem not_commits (h : Life me id tr p) (hs : Lives me id p j p') (hi : i ∈ tr) {x : Address}
    (hcommit : i.Commits id x) : ¬j.Commits id x := by
  rintro ⟨amount, commitment, hcall⟩
  cases hs with
  | mk hstep _ _ htime =>
    cases hcall
    cases hstep with
    | quiet _ hq => cases hq
    | commit ha ok hn =>
      rcases h.keyed.commits x i hi hcommit with hkey | ⟨k, hk, hback⟩
      · exact hkey hn
      · have hlate := h.not_commit_of_takesBack hk hback ha htime
        have hearly := ok.before_deadline
        rw [Ranged.le_iff] at hlate
        rw [Ranged.lt_iff] at hearly
        omega

/-- A call after a reveal neither reveals for the same bidder nor takes the deposit back. -/
theorem not_reveals_of_reveals (h : Life me id tr p) (hs : Lives me id p j p') (hi : i ∈ tr)
    {x : Address} (hreveal : i.Reveals id x) : ¬j.Reveals id x ∧ ¬j.TakesBack id x := by
  have hkey := h.keyed.reveals x i hi hreveal
  cases hs with
  | mk hstep =>
    constructor
    · rintro ⟨amount, salt, hcall⟩
      cases hcall
      cases hstep with
      | quiet _ hq => cases hq
      | reveal _ _ _ hn => exact hkey hn
    · intro hcall
      cases hcall
      cases hstep with
      | quiet _ hq => cases hq
      | takeBack _ _ _ hn => exact hkey hn

/-- A call after a refund neither reveals for the same bidder nor takes the deposit back. -/
theorem not_reveals_of_takesBack (h : Life me id tr p) (hs : Lives me id p j p') (hi : i ∈ tr)
    {x : Address} (hback : i.TakesBack id x) : ¬j.Reveals id x ∧ ¬j.TakesBack id x := by
  have hkey := h.keyed.takesBack x i hi hback
  cases hs with
  | mk hstep =>
    constructor
    · rintro ⟨amount, salt, hcall⟩
      cases hcall
      cases hstep with
      | quiet _ hq => cases hq
      | reveal _ hc =>
        rw [hkey] at hc
        cases hc
    · intro hcall
      cases hcall
      cases hstep with
      | quiet _ hq => cases hq
      | takeBack _ hc =>
        rw [hkey] at hc
        cases hc

/-- A refund pays a deposit that was made. -/
theorem refund_exact (h : Life me id tr p) (hs : Lives me id p j p') {x : Address}
    (hback : j.TakesBack id x) : ∃ i ∈ tr, ∃ amount token, i.Deposits id x amount ∧
      i.outcome.calls = [.transfer token x i.env.currentContractAddress amount] ∧
        j.outcome.calls = [.transfer token j.env.currentContractAddress x amount] := by
  cases hs with
  | mk hstep =>
    cases hback
    cases hstep with
    | quiet _ hq => cases hq
    | takeBack ha hc =>
      obtain ⟨i, hi, hdeposit, hcalls⟩ := h.keyed.paid x _ _ hc ha
      exact ⟨i, hi, _, _, hdeposit, hcalls, rfl⟩

end Life

variable {H : Host Address} {tr : List (Invocation Address)} {w : World H}

/-- Two calls about an auction are in their phases of one and the same record. -/
theorem Run.inPhase (h : Run H tr w) {i j : Invocation Address} (hi : i ∈ tr) (hj : j ∈ tr)
    (hid : i.About id) (hjd : j.About id) : ∃ a : Auction Address, a.InPhase id i ∧
      a.InPhase id j ∧ (a.format = .sealedBid → a.commitDeadline.val < a.revealDeadline.val) := by
  obtain ⟨now, -, hlife⟩ := h.life id
  obtain ⟨a, ha, hphase⟩ :=
    hlife.inPhase i (List.mem_filter.mpr ⟨hi, by simpa using hid⟩)
  obtain ⟨a', ha', hphase'⟩ :=
    hlife.inPhase j (List.mem_filter.mpr ⟨hj, by simpa using hjd⟩)
  obtain rfl := Option.some.inj (ha.symm.trans ha')
  exact ⟨a, hphase, hphase', (hlife.validTerms a ha).sealed⟩

omit [DecidableEq Address] in
theorem Invocation.about_of_commits {i : Invocation Address} {x : Address}
    (h : i.Commits id x) : i.About id := by
  obtain ⟨amount, commitment, hcall⟩ := h
  rw [About, hcall]
  rfl

omit [DecidableEq Address] in
theorem Invocation.about_of_reveals {i : Invocation Address} {x : Address}
    (h : i.Reveals id x) : i.About id := by
  obtain ⟨amount, salt, hcall⟩ := h
  rw [About, hcall]
  rfl

omit [DecidableEq Address] in
theorem Invocation.about_of_takesBack {i : Invocation Address} {x : Address}
    (h : i.TakesBack id x) : i.About id := by
  rw [About, show i.call = _ from h]
  rfl

omit [DecidableEq Address] in
theorem Invocation.about_of_finalizes {i : Invocation Address} (h : i.Finalizes id) :
    i.About id := by
  rw [About, h.1]
  rfl

theorem Run.commits_once (h : Run H tr w) (id : U64) (x : Address) :
    tr.Pairwise fun i j => i.Commits id x → ¬j.Commits id x := by
  refine h.pairwise_about id (fun _ _ _ _ hl hs i hi => hl.not_commits hs hi) ?_
  intro i j hij hi hj
  exact hij (i.about_of_commits hi) (j.about_of_commits hj) hi hj

theorem Run.commit_unique (h : Run H tr w) {x : Address} {i j : Invocation Address} (hi : i ∈ tr)
    (hj : j ∈ tr) (hci : i.Commits id x) (hcj : j.Commits id x) : i = j := by
  have hpairs : tr.Pairwise fun i j => i.Commits id x ∧ j.Commits id x → i = j :=
    (h.commits_once id x).imp fun hij hboth => absurd hboth.2 (hij hboth.1)
  have hflip : tr.Pairwise (flip fun i j => i.Commits id x ∧ j.Commits id x → i = j) :=
    hpairs.imp fun hij hboth => (hij hboth.symm).symm
  exact hpairs.forall_of_forall_of_flip (fun _ _ _ => rfl) hflip hi hj ⟨hci, hcj⟩

/-- **The phases of every sealed auction are kept in every run.** -/
theorem Run.sealedPhases (h : Run H tr w) (id : U64) : SealedPhases id tr where
  in_order := h.in_order.1
  commits_once x := h.commits_once id x
  reveals_once x := by
    refine h.pairwise_about id
      (fun _ _ _ _ hl hs i hi hreveal => (hl.not_reveals_of_reveals hs hi hreveal).1) ?_
    intro i j hij hi hj
    exact hij (i.about_of_reveals hi) (j.about_of_reveals hj) hi hj
  refunds_once x := by
    refine h.pairwise_about id
      (fun _ _ _ _ hl hs i hi hback => (hl.not_reveals_of_takesBack hs hi hback).2) ?_
    intro i j hij hi hj
    exact hij (i.about_of_takesBack hi) (j.about_of_takesBack hj) hi hj
  exclusive x := by
    have hpairs : tr.Pairwise fun i j => (i.Reveals id x → ¬j.TakesBack id x) ∧
        (j.Reveals id x → ¬i.TakesBack id x) := by
      refine h.pairwise_about id (fun _ _ _ _ hl hs i hi => ⟨?_, ?_⟩) ?_
      · exact fun hreveal => (hl.not_reveals_of_reveals hs hi hreveal).2
      · exact fun hreveal hback => (hl.not_reveals_of_takesBack hs hi hback).1 hreveal
      · intro i j hij
        refine ⟨fun hi hj => ?_, fun hj hi => ?_⟩
        · exact (hij (i.about_of_reveals hi) (j.about_of_takesBack hj)).1 hi hj
        · exact (hij (i.about_of_takesBack hi) (j.about_of_reveals hj)).2 hj hi
    -- no call is both, and of two calls one comes first
    have hself : ∀ i ∈ tr, (i.Reveals id x → ¬i.TakesBack id x) ∧
        (i.Reveals id x → ¬i.TakesBack id x) := by
      intro i _
      have hboth : i.Reveals id x → ¬i.TakesBack id x := by
        rintro ⟨amount, salt, hreveal⟩ hback
        cases hreveal.symm.trans hback
      exact ⟨hboth, hboth⟩
    intro i hi j hj
    exact (hpairs.forall_of_forall_of_flip hself (hpairs.imp fun hij => ⟨hij.2, hij.1⟩) hi hj).1
  commit_before_reveal x y i hi j hj hcommit hreveal := by
    obtain ⟨a, hpi, hpj, -⟩ :=
      h.inPhase hi hj (i.about_of_commits hcommit) (j.about_of_reveals hreveal)
    have hearly := Ranged.lt_iff.mp (hpi.commits x hcommit).2
    have hlate := Ranged.le_iff.mp (hpj.reveals y hreveal).2.1
    rw [Ranged.lt_iff]
    omega
  reveal_before_refund x y i hi j hj hreveal hback := by
    obtain ⟨a, hpi, hpj, -⟩ :=
      h.inPhase hi hj (i.about_of_reveals hreveal) (j.about_of_takesBack hback)
    have hearly := Ranged.lt_iff.mp (hpi.reveals x hreveal).2.2
    have hlate := Ranged.le_iff.mp (hpj.takesBack y hback).2
    rw [Ranged.lt_iff]
    omega
  reveal_before_finalization x i hi j hj hreveal hfinal := by
    obtain ⟨a, hpi, hpj, -⟩ :=
      h.inPhase hi hj (i.about_of_reveals hreveal) (j.about_of_finalizes hfinal)
    have hearly := Ranged.lt_iff.mp (hpi.reveals x hreveal).2.2
    have hlate := Ranged.le_iff.mp (hpj.finalizes hfinal).2
    rw [Ranged.lt_iff]
    omega
  refund_exact x j hj hback := by
    obtain ⟨past, p, p', hpre, hlife, hs, -, -⟩ :=
      h.lives_of_mem hj (j.about_of_takesBack hback)
    obtain ⟨i, hi, amount, token, hdeposit, hin, hout⟩ := hlife.refund_exact hs hback
    have hmem : i ∈ tr.filter (·.About id) := hpre.subset (List.mem_append_left _ hi)
    exact ⟨i, (List.mem_filter.mp hmem).1, amount, token, hdeposit, hin, hout⟩

/-- Two accounts commit, one reveals and the other takes the deposit back. -/
def Stage.sealedBidding : List (Tx ℕ × Call ℕ) :=
  Stage.opening .sealedBid Stage.painting ++
    [(Stage.signed 2 1, .activateAuction 0),
      (Stage.signed 3 (.of 2), .commitBid 0 3 (Stage.commitment (.of 100) 3) (.of 100)),
      (Stage.signed 4 (.of 9), .commitBid 0 4 (Stage.commitment (.of 50) 4) (.of 50)),
      (Stage.signed 3 (.of 10), .revealBid 0 3 (.of 100) (BytesN.replicate 32 0)),
      (Stage.signed 4 (.of 20), .refundUnrevealed 0 4),
      (Stage.signed 2 (.of 30), .closeAuction 0)]

/-- The theorem at these calls. -/
theorem sealedPhases_sealedBidding : ∃ (tr : List (Invocation ℕ)) (w : World Stage.host),
    Run Stage.host tr w ∧ tr.length = 8 ∧ SealedPhases 0 tr := by
  have hreplay : (replay Stage.start Stage.sealedBidding).map (fun r => r.1.length) = some 8 := by
    decide +kernel
  obtain ⟨tr, w, hrun, hlength⟩ := exists_run_of_replay Stage.world_refl rfl hreplay
  exact ⟨tr, w, hrun, hlength, hrun.sealedPhases 0⟩

end UrithiBidz
