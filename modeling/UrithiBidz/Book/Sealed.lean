import UrithiBidz.Book.Life

/-!
# The records of a sealed auction

What a sealed auction knows of its bidders is spread over three places: the commitments and
the revealed bids, each under the key of its bidder, and the record of the auction, which
counts the first and lists the second. `UrithiBidz.Book.Consistent` says how they fit
together, and every step of every life keeps them consistent, whatever is called and in
which order.
-/

namespace UrithiBidz

variable {Address : Type} [DecidableEq Address]

/-- **The records of a sealed auction fit together.** -/
structure Book.Consistent (b : Book Address) : Prop where
  /-- Only sealed auctions have commitments. -/
  unsealed : ∀ a, b.auction = some a → a.format ≠ .sealedBid → ∀ x, b.commitments x = none
  /-- Whoever has revealed has committed. -/
  committed : ∀ x, b.revealed x ≠ none → b.commitments x ≠ none
  /-- The list of revealed bids is the revealed bids. -/
  listed : ∀ a, b.auction = some a → ∀ e, e ∈ a.revealedBids ↔ b.revealed e.bidder = some e
  /-- Everybody is on it once. -/
  nodup : ∀ a, b.auction = some a → (a.revealedBids.map (·.bidder)).Nodup
  /-- The commitments are counted. -/
  counted : ∀ a, b.auction = some a → ∃ bidders : Finset Address,
    (∀ x, x ∈ bidders ↔ b.commitments x ≠ none) ∧ (bidders.card : ℤ) = a.bidderCount.val
  /-- A revealed bid is filed under its bidder. -/
  filed : ∀ x e, b.revealed x = some e → e.bidder = x

omit [DecidableEq Address] in
theorem Book.consistent_blank : (Book.blank : Book Address).Consistent where
  unsealed _ ha := by cases ha
  committed _ hx := absurd rfl hx
  listed _ ha := by cases ha
  nodup _ ha := by cases ha
  counted _ ha := by cases ha
  filed _ _ he := by cases he

omit [DecidableEq Address] in
/-- Rewriting the record keeps the records consistent, if format, list and count stay. -/
theorem Book.Consistent.of_eq {b b' : Book Address} (h : b.Consistent) {a a' : Auction Address}
    (ha : b.auction = some a) (ha' : b'.auction = some a')
    (hcommitments : b'.commitments = b.commitments) (hrevealed : b'.revealed = b.revealed)
    (hformat : a'.format = a.format) (hlist : a'.revealedBids = a.revealedBids)
    (hcount : a'.bidderCount = a.bidderCount) : b'.Consistent := by
  refine ⟨?_, ?_, ?_, ?_, ?_, ?_⟩
  · intro a₁ ha₁ hf
    obtain rfl := Option.some.inj (ha'.symm.trans ha₁)
    rw [hcommitments]
    exact h.unsealed a ha (hformat ▸ hf)
  · rw [hcommitments, hrevealed]
    exact h.committed
  · intro a₁ ha₁
    obtain rfl := Option.some.inj (ha'.symm.trans ha₁)
    rw [hlist, hrevealed]
    exact h.listed a ha
  · intro a₁ ha₁
    obtain rfl := Option.some.inj (ha'.symm.trans ha₁)
    rw [hlist]
    exact h.nodup a ha
  · intro a₁ ha₁
    obtain rfl := Option.some.inj (ha'.symm.trans ha₁)
    rw [hcommitments, hcount]
    exact h.counted a ha
  · rw [hrevealed]
    exact h.filed

namespace Book.Consistent

variable {b : Book Address} {a : Auction Address} {x : Address}

/-- A new commitment is counted. -/
theorem commit (h : b.Consistent) (ha : b.auction = some a) (hf : a.format = .sealedBid)
    (hn : b.commitments x = none) (hroom : a.bidderCount < U64.max) (c : BidCommitment Address) :
    ((b.setCommitment x (some c)).setAuction
      { a with bidderCount := a.bidderCount.wrappingAdd 1 }).Consistent := by
  refine ⟨?_, ?_, ?_, ?_, ?_, h.filed⟩
  · rintro a' ⟨⟩ hcon
    exact absurd hf hcon
  · intro y hy
    simp only [setAuction_commitments, setCommitment_commitments]
    by_cases hyx : y = x
    · subst hyx
      rw [Function.update_self]
      exact Option.some_ne_none c
    · rw [Function.update_of_ne hyx]
      exact h.committed y hy
  · rintro a' ⟨⟩
    exact h.listed a ha
  · rintro a' ⟨⟩
    exact h.nodup a ha
  · rintro a' ⟨⟩
    obtain ⟨bidders, hmem, hcard⟩ := h.counted a ha
    have hx : x ∉ bidders := fun hcon => (hmem x).mp hcon hn
    -- who committed is one bidder more, and the counter has room for one more
    refine ⟨insert x bidders, fun y => ?_, ?_⟩
    · simp only [setAuction_commitments, setCommitment_commitments, Finset.mem_insert]
      by_cases hyx : y = x
      · subst hyx
        simp
      · simp [hyx, hmem y]
    · rw [Finset.card_insert_of_notMem hx]
      change _ = (a.bidderCount.wrappingAdd 1).val
      rw [U64.val_wrappingAdd_one hroom]
      simp [hcard]

/-- A revealed bid is listed. -/
theorem reveal (h : b.Consistent) (ha : b.auction = some a) (hn : b.revealed x = none)
    (hc : b.commitments x ≠ none) (hf : a.format = .sealedBid)
    (e : SealedBidEntry Address) (he : e.bidder = x) :
    ((b.setAuction (a.withReveal e)).setRevealed x e).Consistent := by
  subst he
  refine ⟨?_, ?_, ?_, ?_, ?_, ?_⟩
  · rintro a' ⟨⟩ hcon
    exact absurd hf hcon
  · intro y hy
    by_cases hyx : y = e.bidder
    · subst hyx
      exact hc
    · refine h.committed y ?_
      simpa [Function.update_of_ne hyx] using hy
  · rintro a' ⟨⟩ e'
    simp only [Auction.withReveal, List.mem_append, List.mem_singleton, setRevealed_revealed,
      setAuction_revealed]
    by_cases hyx : e'.bidder = e.bidder
    · -- the bidder was not on the list before
      have hnot : e' ∉ a.revealedBids := fun hmem => by
        rw [← hyx, (h.listed a ha e').mp hmem] at hn
        cases hn
      rw [hyx, Function.update_self]
      simp [hnot, eq_comm]
    · have hne : e' ≠ e := fun hcon => hyx (by rw [hcon])
      rw [Function.update_of_ne hyx]
      simp [hne, h.listed a ha e']
  · rintro a' ⟨⟩
    simp only [Auction.withReveal, List.map_append, List.map_singleton]
    refine List.Nodup.append (h.nodup a ha) (List.nodup_singleton _) ?_
    rw [List.disjoint_singleton]
    intro hmem
    obtain ⟨e', he', hbidder⟩ := List.mem_map.mp hmem
    rw [← hbidder, (h.listed a ha e').mp he'] at hn
    cases hn
  · rintro a' ⟨⟩
    exact h.counted a ha
  · intro y e' hy
    by_cases hyx : y = e.bidder
    · subst hyx
      rw [setRevealed_revealed, Function.update_self] at hy
      rw [← Option.some.inj hy]
    · rw [setRevealed_revealed, Function.update_of_ne hyx] at hy
      exact h.filed y e' hy

/-- A deposit that is taken back is no longer counted. -/
theorem takeBack (h : b.Consistent) (ha : b.auction = some a) (hf : a.format = .sealedBid)
    (hc : b.commitments x ≠ none) (hn : b.revealed x = none) :
    ((b.setCommitment x none).setAuction a.withoutBidder).Consistent := by
  refine ⟨?_, ?_, ?_, ?_, ?_, h.filed⟩
  · rintro a' ⟨⟩ hcon
    exact absurd hf hcon
  · intro y hy
    have hyx : y ≠ x := fun hcon => hy (hcon ▸ hn)
    simp only [setAuction_commitments, setCommitment_commitments, Function.update_of_ne hyx]
    exact h.committed y hy
  · rintro a' ⟨⟩
    exact h.listed a ha
  · rintro a' ⟨⟩
    exact h.nodup a ha
  · rintro a' ⟨⟩
    obtain ⟨bidders, hmem, hcard⟩ := h.counted a ha
    have hx : x ∈ bidders := (hmem x).mpr hc
    refine ⟨bidders.erase x, fun y => ?_, ?_⟩
    · simp only [setAuction_commitments, setCommitment_commitments, Finset.mem_erase]
      by_cases hyx : y = x
      · subst hyx
        simp
      · simp [hyx, hmem y]
    · have hpos : 0 < bidders.card := Finset.card_pos.mpr ⟨x, hx⟩
      rw [Finset.card_erase_of_mem hx, Auction.val_bidderCount_withoutBidder (by omega)]
      omega

end Book.Consistent

/-! ### Along a life -/

variable {env : Env Address} {id : U64} {c : Call Address} {b b' : Book Address}
  {calls : List (TokenCall Address)} {me : Address}

/-- **Every step keeps the records consistent.** -/
theorem BookStep.consistent {s : Storage Address} (h : BookStep env id c b b' calls)
    (hblank : b.BlankPages) (hroom : c.Room s) (hs : s.book id = b) (hb : b.Consistent) :
    b'.Consistent := by
  cases h with
  | create hnone =>
    rw [hblank hnone]
    refine ⟨fun _ _ _ _ => rfl, fun _ hx => absurd rfl hx, ?_, ?_, ?_, fun _ _ he => by cases he⟩
    · rintro a' ⟨⟩ e
      exact ⟨fun he => absurd he List.not_mem_nil, fun he => by cases he⟩
    · rintro a' ⟨⟩
      exact List.nodup_nil
    · rintro a' ⟨⟩
      exact ⟨∅, fun x => ⟨fun hx => absurd hx (Finset.notMem_empty x), fun hx => absurd rfl hx⟩,
        rfl⟩
  | withdraw ha => exact hb.of_eq ha ha rfl rfl rfl rfl rfl
  | quiet ha hq =>
    have hsame := hq.sameBids
    exact hb.of_eq ha rfl rfl rfl hsame.format hsame.revealedBids hsame.bidderCount
  | firstBid ha => exact hb.of_eq ha rfl rfl rfl rfl rfl rfl
  | outbid ha => exact hb.of_eq ha rfl rfl rfl rfl rfl rfl
  | buy ha => exact hb.of_eq ha rfl rfl rfl rfl rfl rfl
  | finalize ha => exact hb.of_eq ha rfl (by simp) (by simp) rfl rfl rfl
  | commit ha ok hn =>
    refine hb.commit ha ok.format hn (hroom _ ?_) _
    rw [← hs] at ha
    exact ha
  | reveal ha hc ok hn =>
    exact hb.reveal ha hn (by simp [hc]) ok.format _ rfl
  | takeBack ha hc ok hn => exact hb.takeBack ha ok.format (by simp [hc]) hn

/-- **The records are consistent throughout.** -/
theorem Life.consistent {tr : List (Invocation Address)} {p : Book Address × U64}
    (h : Life me id tr p) : p.1.Consistent := by
  refine induct (P := fun _ b _ => b.Consistent) (fun _ => Book.consistent_blank) ?_ h
  intro tr b now env s c s' events calls value b' hl ih hstep _ _ _ hroom hbefore _
  exact hstep.consistent hl.blankPages hroom hbefore ih

/-! ### The credits of a finalization -/

namespace Book

theorem creditLosers_cons (b : Book Address) (winner e : SealedBidEntry Address)
    (entries : List (SealedBidEntry Address)) :
    b.creditLosers winner (e :: entries) =
      if e.bidder ≠ winner.bidder then (b.credit e.bidder e.amount).creditLosers winner entries
      else b.creditLosers winner entries := by
  rw [creditLosers, List.foldl_cons]
  split <;> rfl

theorem refund_creditLosers_of_ne {winner : SealedBidEntry Address}
    {entries : List (SealedBidEntry Address)} {x : Address}
    (hx : ∀ e ∈ entries, e.bidder ≠ winner.bidder → x ≠ e.bidder) (b : Book Address) :
    (b.creditLosers winner entries).refund x = b.refund x := by
  induction entries generalizing b with
  | nil => rfl
  | cons e entries ih =>
    obtain ⟨hfirst, hrest⟩ := List.forall_mem_cons.mp hx
    rw [creditLosers_cons]
    split
    · next hne => rw [ih hrest, refund_credit_of_ne b (hfirst hne)]
    · exact ih hrest b

theorem refund_creditLosers_of_notMem {winner : SealedBidEntry Address}
    {entries : List (SealedBidEntry Address)} {x : Address}
    (hx : x ∉ entries.map (·.bidder)) (b : Book Address) :
    (b.creditLosers winner entries).refund x = b.refund x :=
  refund_creditLosers_of_ne
    (fun e he _ hcon => hx (List.mem_map.mpr ⟨e, he, hcon.symm⟩)) b

/-- **Every loser is credited with the bid**, if everybody has revealed once. -/
theorem refund_creditLosers_of_mem {winner e : SealedBidEntry Address}
    {entries : List (SealedBidEntry Address)} (hnodup : (entries.map (·.bidder)).Nodup)
    (he : e ∈ entries) (hne : e.bidder ≠ winner.bidder) (b : Book Address) :
    (b.creditLosers winner entries).refund e.bidder =
      (b.refund e.bidder).saturatingAdd e.amount := by
  induction entries generalizing b with
  | nil => cases he
  | cons e' entries ih =>
    obtain ⟨hnew, hnodup⟩ := List.nodup_cons.mp hnodup
    rw [creditLosers_cons]
    rcases List.mem_cons.mp he with rfl | he
    · rw [if_pos hne, refund_creditLosers_of_notMem hnew, refund_credit_self]
    · -- somebody else's entry comes first
      have hother : e.bidder ≠ e'.bidder := fun hcon =>
        hnew (List.mem_map.mpr ⟨e, he, hcon⟩)
      split
      · rw [ih hnodup he, refund_credit_of_ne b hother]
      · exact ih hnodup he b

end Book

end UrithiBidz
