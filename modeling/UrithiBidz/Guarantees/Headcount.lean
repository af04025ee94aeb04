import UrithiBidz.Book.Sealed
import UrithiBidz.Guarantees.Phases

/-!
# Counting the bidders of a sealed auction

A sealed auction may set a limit to the number of its bidders, to bound the work of closing it.
The limit is held against a counter in the record, and the work is done on a list in the
record, while who has bid is a matter of the keys. The counter goes down again when a deposit
is taken back, so the limit would not bound the number of bidders at all if somebody could
commit after that. Nobody can, since by then the commit phase is over.

`UrithiBidz.Book.Consistent` says how the counter, the list and the keys fit together;
here are the consequences that the limit needs. `UrithiBidz.committers` is everybody who ever
committed, `UrithiBidz.Life.capped` keeps them within the limit, and
`UrithiBidz.Run.headcount` is the theorem about runs.
-/

namespace UrithiBidz

variable {Address : Type}

/-! ### Everybody who committed -/

/-- Whose commitment to a bid on the auction a call stores, if it does. -/
def Call.committerOn (id : U64) : Call Address → Option Address
  | .commitBid id' bidder _ _ => if id' = id then some bidder else none
  | _ => none

theorem Call.committerOn_eq_some_iff {id : U64} {c : Call Address} {x : Address} :
    c.committerOn id = some x ↔ ∃ amount commitment, c = .commitBid id x commitment amount := by
  cases c with
  | commitBid id' bidder commitment amount =>
    simp only [committerOn, Option.ite_none_right_eq_some, Option.some.injEq, commitBid.injEq]
    constructor
    · rintro ⟨rfl, rfl⟩
      exact ⟨amount, commitment, rfl, rfl, rfl, rfl⟩
    · rintro ⟨_, _, rfl, rfl, -, -⟩
      exact ⟨rfl, rfl⟩
  | _ => simp [committerOn]

variable [DecidableEq Address]

/-- **Everybody who committed a bid on an auction.** -/
def committers (id : U64) (tr : List (Invocation Address)) : Finset Address :=
  (tr.filterMap fun i => i.call.committerOn id).toFinset

variable {id : U64} {tr : List (Invocation Address)} {x : Address}

theorem mem_committers : x ∈ committers id tr ↔ ∃ i ∈ tr, i.Commits id x := by
  simp only [committers, List.mem_toFinset, List.mem_filterMap, Call.committerOn_eq_some_iff]
  rfl

theorem committers_snoc_of_commits {i : Invocation Address} (h : i.Commits id x) :
    committers id (tr ++ [i]) = insert x (committers id tr) := by
  ext y
  simp only [mem_committers, Finset.mem_insert, List.mem_append, List.mem_singleton]
  constructor
  · rintro ⟨j, hj | rfl, hcommits⟩
    · exact Or.inr ⟨j, hj, hcommits⟩
    · obtain ⟨_, _, hcall⟩ := h
      obtain ⟨_, _, hcall'⟩ := hcommits
      cases hcall.symm.trans hcall'
      exact Or.inl rfl
  · rintro (rfl | ⟨j, hj, hcommits⟩)
    · exact ⟨i, Or.inr rfl, h⟩
    · exact ⟨j, Or.inl hj, hcommits⟩

theorem committers_snoc {i : Invocation Address} (h : ∀ x, ¬i.Commits id x) :
    committers id (tr ++ [i]) = committers id tr := by
  ext y
  simp only [mem_committers, List.mem_append, List.mem_singleton]
  constructor
  · rintro ⟨j, hj | rfl, hcommits⟩
    · exact ⟨j, hj, hcommits⟩
    · exact absurd hcommits (h y)
  · rintro ⟨j, hj, hcommits⟩
    exact ⟨j, Or.inl hj, hcommits⟩

/-- Who committed to a bid on an auction is told by the calls about it. -/
theorem committers_filter (tr : List (Invocation Address)) :
    committers id (tr.filter (·.About id)) = committers id tr := by
  ext y
  simp only [mem_committers, List.mem_filter, decide_eq_true_eq]
  constructor
  · rintro ⟨j, ⟨hj, -⟩, hcommits⟩
    exact ⟨j, hj, hcommits⟩
  · rintro ⟨j, hj, hcommits⟩
    exact ⟨j, ⟨hj, j.about_of_commits hcommits⟩, hcommits⟩

/-! ### The counter, the list and the keys -/

namespace Book.Consistent

variable {b : Book Address} {a : Auction Address}

omit [DecidableEq Address] in
theorem bidderCount_pos (h : b.Consistent) (ha : b.auction = some a)
    (hx : b.commitments x ≠ none) : 0 < a.bidderCount.val := by
  obtain ⟨bidders, hmem, hcard⟩ := h.counted a ha
  have hpos : 0 < bidders.card := Finset.card_pos.mpr ⟨x, (hmem x).mpr hx⟩
  omega

/-- **Whoever is on the list is counted**, so the list is no longer than the count. -/
theorem length_le (h : b.Consistent) (ha : b.auction = some a) :
    (a.revealedBids.length : ℤ) ≤ a.bidderCount.val := by
  obtain ⟨bidders, hmem, hcard⟩ := h.counted a ha
  have hsub : (a.revealedBids.map (·.bidder)).toFinset ⊆ bidders := by
    intro x hx
    obtain ⟨e, he, rfl⟩ := List.mem_map.mp (List.mem_toFinset.mp hx)
    have hrevealed := (h.listed a ha e).mp he
    exact (hmem e.bidder).mpr (h.committed e.bidder (by simp [hrevealed]))
  have hle := Finset.card_le_card hsub
  rw [List.toFinset_card_of_nodup (h.nodup a ha), List.length_map] at hle
  omega

omit [DecidableEq Address] in
/-- **The keys of the revealed bids are the bidders of the list.** -/
theorem revealed_iff (h : b.Consistent) (ha : b.auction = some a) {e : SealedBidEntry Address} :
    b.revealed x = some e ↔ e ∈ a.revealedBids ∧ e.bidder = x := by
  constructor
  · intro he
    obtain rfl := h.filed x e he
    exact ⟨(h.listed a ha e).mpr he, rfl⟩
  · rintro ⟨he, rfl⟩
    exact (h.listed a ha e).mp he

end Book.Consistent

/-! ### Along a life -/

variable {env : Env Address} {c : Call Address} {b b' : Book Address}
  {calls : List (TokenCall Address)} {me : Address}

/-- **Only a commitment raises the count.** -/
theorem BookStep.bidderCount_le (h : BookStep env id c b b' calls) {a a' : Auction Address}
    (ha : b.auction = some a) (ha' : b'.auction = some a')
    (hc : ∀ x commitment amount, c ≠ .commitBid id x commitment amount) :
    a'.bidderCount ≤ a.bidderCount := by
  cases h with
  | create hnone => rw [hnone] at ha; cases ha
  | commit => exact absurd rfl (hc _ _ _)
  | withdraw => rw [Option.some.inj (ha'.symm.trans ha)]
  | quiet hb hq =>
    obtain rfl := Option.some.inj (ha.symm.trans hb)
    obtain rfl := Option.some.inj ha'
    rw [hq.sameBids.bidderCount]
  | takeBack hb =>
    obtain rfl := Option.some.inj (ha.symm.trans hb)
    obtain rfl := Option.some.inj ha'
    exact a.bidderCount_withoutBidder_le
  | _ hb =>
    obtain rfl := Option.some.inj (ha.symm.trans hb)
    have hsame := congrArg Auction.bidderCount (Option.some.inj ha')
    rw [← hsame]
    exact le_refl a.bidderCount.val

/-- **The bidders are within the limit**, if there is one: those who are counted, and all who
ever committed. -/
def Auction.Capped (a : Auction Address) (id : U64) (tr : List (Invocation Address)) : Prop :=
  0 < a.maxBidders.val → a.bidderCount ≤ a.maxBidders ∧
    ((committers id tr).card : ℤ) ≤ a.maxBidders.val

/-- Everybody who committed is counted, as long as nobody has taken a deposit back. -/
theorem Book.Keyed.card_committers_le (h : b.Keyed id tr) (hb : b.Consistent)
    {a : Auction Address} (ha : b.auction = some a) (hno : ∀ x, ∀ i ∈ tr, ¬i.TakesBack id x) :
    ((committers id tr).card : ℤ) ≤ a.bidderCount.val := by
  obtain ⟨bidders, hmem, hcard⟩ := hb.counted a ha
  have hsub : committers id tr ⊆ bidders := by
    intro x hx
    obtain ⟨i, hi, hcommits⟩ := mem_committers.mp hx
    refine (hmem x).mpr ((h.commits x i hi hcommits).resolve_right ?_)
    rintro ⟨j, hj, hback⟩
    exact hno x j hj hback
  have hle := Finset.card_le_card hsub
  omega

/-- A commitment that is accepted stays within the limit. -/
theorem AcceptsCommit.capped {a : Auction Address} {i : Invocation Address}
    {bidder : Address} {amount : I128} (ok : AcceptsCommit env a bidder amount)
    (hcommitters : ((committers id tr).card : ℤ) ≤ a.bidderCount.val)
    (hi : i.Commits id bidder) :
    ({ a with bidderCount := a.bidderCount.wrappingAdd 1 } : Auction Address).Capped id
      (tr ++ [i]) := by
  intro hlimit
  have hroom := Ranged.lt_iff.mp (ok.room hlimit)
  have hhi := a.maxBidders.le_hi
  have hcount : (a.bidderCount.wrappingAdd 1).val = a.bidderCount.val + 1 :=
    U64.val_wrappingAdd_one (hroom.trans_le hhi)
  refine ⟨?_, ?_⟩
  · rw [Ranged.le_iff, hcount]
    exact hroom
  · have hcard := Finset.card_insert_le bidder (committers id tr)
    rw [committers_snoc_of_commits hi]
    change _ ≤ a.maxBidders.val
    omega

/-- **The bidders stay within the limit.** -/
theorem Life.capped {p : Book Address × U64} (h : Life me id tr p) :
    ∀ a, p.1.auction = some a → a.Capped id tr := by
  refine induct (P := fun tr b _ => ∀ a, b.auction = some a → a.Capped id tr)
    (fun _ _ ha => by cases ha) ?_ h
  intro tr b now env s c s' events calls value b' hl ih hstep _ _ htime _ _ _ a' ha'
  rcases ha : b.auction with _ | a
  · -- the auction has just been created
    obtain ⟨rfl, -⟩ := hl.unborn ha
    obtain ⟨params, config, rfl, -, rfl, -⟩ := hstep.of_none ha
    rw [← Option.some.inj ha']
    intro hlimit
    rw [committers_snoc fun x hcon => (Invocation.not_of_not_handlesSealed rfl x).1 hcon]
    exact ⟨hlimit.le, hlimit.le⟩
  · by_cases hcommits : ∃ x commitment amount, c = .commitBid id x commitment amount
    · obtain ⟨x, commitment, amount, rfl⟩ := hcommits
      cases hstep with
      | quiet _ hq => cases hq
      | commit hb ok =>
        obtain rfl := Option.some.inj (ha.symm.trans hb)
        rw [← Option.some.inj ha']
        refine ok.capped (hl.keyed.card_committers_le hl.consistent ha ?_)
          ⟨amount, commitment, rfl⟩
        -- deposits are only taken back once it is too late to commit
        intro y i hi hback
        have hlate := Ranged.le_iff.mp (hl.not_commit_of_takesBack hi hback ha htime)
        have hearly := Ranged.lt_iff.mp ok.before_deadline
        omega
    · intro hlimit
      have hterms := hstep.sameTerms_of_some ha ha'
      rw [hterms.maxBidders] at hlimit ⊢
      obtain ⟨hcount, hcard⟩ := ih a ha hlimit
      rw [committers_snoc fun x => ?_]
      · refine ⟨(hstep.bidderCount_le ha ha' ?_).trans hcount, hcard⟩
        exact fun x commitment amount hc => hcommits ⟨x, commitment, amount, hc⟩
      · rintro ⟨amount, commitment, hc⟩
        exact hcommits ⟨x, commitment, amount, hc⟩

/-! ### Along a run -/

variable {H : Host Address} {w : World H}

/-- **The books of a sealed auction are in order**: the count, the limit, the list and the
keys, in the state that a run has reached. -/
structure Headcount {H : Host Address} (id : U64) (a : Auction Address)
    (tr : List (Invocation Address)) (w : World H) : Prop where
  /-- The count is the number of addresses with a commitment. -/
  counted : ∃ bidders : Finset Address,
    (∀ x, x ∈ bidders ↔ w.storage.commitments id x ≠ none) ∧
      (bidders.card : ℤ) = a.bidderCount.val
  /-- If there is a limit, the count is within it, and so are all who ever committed. -/
  capped : 0 < a.maxBidders.val → a.bidderCount ≤ a.maxBidders ∧
    ((committers id tr).card : ℤ) ≤ a.maxBidders.val
  /-- The list and the keys hold the same entries, each under its bidder. -/
  listed : ∀ x e, w.storage.revealed id x = some e ↔ e ∈ a.revealedBids ∧ e.bidder = x
  /-- Every bidder is on the list once. -/
  once : (a.revealedBids.map (·.bidder)).Nodup
  /-- Whoever has revealed still has a commitment. -/
  committed : ∀ x, w.storage.revealed id x ≠ none → w.storage.commitments id x ≠ none
  /-- The list is no longer than the count. -/
  length_le : (a.revealedBids.length : ℤ) ≤ a.bidderCount.val
  /-- Whoever takes a deposit back was counted, and is no longer. -/
  uncounted : ∀ i ∈ tr, ∀ x, i.TakesBack id x → ∃ a₀ a₁, i.before.auctions id = some a₀ ∧
    i.outcome.storage.auctions id = some a₁ ∧ 0 < a₀.bidderCount.val ∧
      a₁.bidderCount.val = a₀.bidderCount.val - 1

/-- **The books of a sealed auction are in order**, in any run. -/
theorem Run.headcount (h : Run H tr w) {a : Auction Address}
    (ha : w.storage.auctions id = some a) : Headcount id a tr w := by
  obtain ⟨now, -, hlife⟩ := h.life id
  have hconsistent := hlife.consistent
  have hcapped := hlife.capped a ha
  rw [Auction.Capped, committers_filter] at hcapped
  refine ⟨hconsistent.counted a ha, hcapped, fun x e => hconsistent.revealed_iff ha,
    hconsistent.nodup a ha, hconsistent.committed, hconsistent.length_le ha, ?_⟩
  intro i hi x hback
  obtain ⟨past, p, p', -, hpast, hs, hbefore, -⟩ := h.lives_of_mem hi (i.about_of_takesBack hback)
  have hstep := h.bookStep_of_mem hi (i.about_of_takesBack hback)
  have hold := hpast.consistent
  rw [← hbefore] at hold
  rw [show i.call = _ from hback] at hstep
  generalize i.outcome.calls = calls at hstep
  generalize hb' : i.outcome.storage.book id = b' at hstep
  cases hstep with
  | quiet _ hq => cases hq
  | takeBack hb hc =>
    have hpos := hold.bidderCount_pos (x := x) hb (by simp [hc])
    exact ⟨_, _, hb, congrArg Book.auction hb', hpos, Auction.val_bidderCount_withoutBidder hpos⟩

/-- The theorem at two bidders, one of whom takes the deposit back. -/
theorem headcount_sealedBidding : ∃ (tr : List (Invocation ℕ)) (w : World Stage.host)
    (a : Auction ℕ), committers 0 tr = {3, 4} ∧ a.bidderCount = 1 ∧
      a.revealedBids.map (·.bidder) = [3] ∧ Headcount 0 a tr w := by
  have hreplay : (replay Stage.start Stage.sealedBidding).map (fun r => (committers 0 r.1,
      (r.2.storage.auctions 0).map fun a => (a.bidderCount, a.revealedBids.map (·.bidder)))) =
        some ({3, 4}, some (1, [3])) := by decide +kernel
  obtain ⟨tr, w, hrun, hv⟩ := exists_run_of_replay Stage.world_refl rfl hreplay
  obtain ⟨hcommitters, ha⟩ := Prod.mk.inj hv
  obtain ⟨a, ha, hfields⟩ := Option.map_eq_some_iff.mp ha
  obtain ⟨hcount, hlist⟩ := Prod.mk.inj hfields
  exact ⟨tr, w, a, hcommitters, hcount, hlist, hrun.headcount ha⟩

end UrithiBidz
