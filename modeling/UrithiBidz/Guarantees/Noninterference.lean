import UrithiBidz.Library.Projection
import UrithiBidz.Ledger.Replay

/-!
# Auctions do not interfere

A call about an auction reads the book of that auction, and the platform's wallet if it settles.
So what it does, and whether it is refused, is told by those alone (`UrithiBidz.invoke_congr`):
not by the other auctions, and not by the settings, which only a creation reads.

Hence the calls about other auctions can be left out of a run, and so can the updates of the
settings and the creations that come after the auction was created. What is left is a run of the
contract's own code, each call in the environment that it had (`UrithiBidz.CodeStep`), in which the
calls about the auction publish the same events, ask for the same token calls and return the same
values, and the auction ends with the same book. To one more call about the auction, in whatever
environment, the code answers the same after both, or refuses it after both. This is
`UrithiBidz.Run.undisturbed`.

All of this is about the code. It records the token calls that are asked for, but does not execute
them. Whether the token contracts carry them out may well depend on other auctions, since the
contract holds what it owes in one balance, and the same seller or bidder may be in many; a call
that goes through after the whole run may fail there after what is left of it. The environment is
not left out either: what a token contract answers is given.
-/

namespace UrithiBidz

variable {Address : Type}

/-! ### Reading a book -/

/-- Two outcomes that are the same for an auction. -/
structure Outcome.SameAt (id : U64) (o o' : Outcome Address) : Prop where
  events : o'.events = o.events
  calls : o'.calls = o.calls
  value : o'.value = o.value
  book : o'.storage.book id = o.storage.book id

theorem Outcome.SameAt.symm {id : U64} {o o' : Outcome Address} (h : o.SameAt id o') :
    o'.SameAt id o := ⟨h.events.symm, h.calls.symm, h.value.symm, h.book.symm⟩

/-- Calls about the platform as a whole, and creations, which read the settings. -/
def Call.isGlobal : Call Address → Bool
  | .initializeContract .. => true
  | .updateConfig .. => true
  | .createAuction _ => true
  | _ => false

variable [DecidableEq Address] {env : Env Address} {s t : Storage Address} {id : U64}
  {c : Call Address} {o : Outcome Address}

/-- A credit of a finalization changes nothing that a refund does not. -/
theorem foldl_creditLoser_keeps {γ : Type} (f : Storage Address → γ)
    (hf : ∀ s x amount, f (s.setRefund id x amount) = f s) (winner : SealedBidEntry Address)
    (entries : List (SealedBidEntry Address)) (acc : Storage Address × List (Event Address)) :
    f (entries.foldl (creditLoser id winner) acc).1 = f acc.1 := by
  induction entries generalizing acc with
  | nil => rfl
  | cons entry entries ih =>
    rw [List.foldl_cons, ih, creditLoser]
    split
    · exact hf _ _ _
    · rfl

/-- The credits publish the same, whatever they are added to. -/
theorem foldl_creditLoser_events (winner : SealedBidEntry Address)
    (entries : List (SealedBidEntry Address)) {acc acc' : Storage Address × List (Event Address)}
    (h : acc'.2 = acc.2) : (entries.foldl (creditLoser id winner) acc').2 =
      (entries.foldl (creditLoser id winner) acc).2 := by
  induction entries generalizing acc acc' with
  | nil => exact h
  | cons entry entries ih =>
    refine ih ?_
    unfold creditLoser
    split
    · exact congrArg (· ++ _) h
    · exact h

/-- **The calls about an auction leave the platform alone**: the counter, the settings and the
wallet. -/
theorem invoke_global (h : invoke env s c = .ok o) (hc : c.isGlobal = false) :
    o.storage.auctionCount = s.auctionCount ∧ o.storage.config = s.config ∧
      o.storage.platformWallet = s.platformWallet := by
  cases c with
  | initializeContract => cases hc
  | updateConfig => cases hc
  | createAuction => cases hc
  | attestPhysicalItem _ custodian hash =>
    obtain ⟨a, -, -, rfl⟩ := attestPhysicalItem_eq_ok_iff.mp h
    exact ⟨rfl, rfl, rfl⟩
  | activateAuction =>
    obtain ⟨a, -, -, rfl⟩ := activateAuction_eq_ok_iff.mp h
    exact ⟨rfl, rfl, rfl⟩
  | cancelAuction =>
    obtain ⟨a, -, -, rfl⟩ := cancelAuction_eq_ok_iff.mp h
    exact ⟨rfl, rfl, rfl⟩
  | approveNftTransfer =>
    obtain ⟨a, item, -, -, rfl⟩ := approveNftTransfer_eq_ok_iff.mp h
    exact ⟨rfl, rfl, rfl⟩
  | placeBid id bidder amount =>
    obtain ⟨a, -, -, rfl⟩ := placeBid_eq_ok_iff.mp h
    unfold placeBidOutcome creditPreviousBidder
    cases a.highestBidder <;> exact ⟨rfl, rfl, rfl⟩
  | buyNow id buyer maxPrice =>
    obtain ⟨a, -, -, rfl⟩ := buyNow_eq_ok_iff.mp h
    exact ⟨rfl, rfl, rfl⟩
  | commitBid id bidder commitment amount =>
    obtain ⟨a, -, -, rfl⟩ := commitBid_eq_ok_iff.mp h
    exact ⟨rfl, rfl, rfl⟩
  | revealBid id bidder amount salt =>
    obtain ⟨a, stored, -, -, -, rfl⟩ := revealBid_eq_ok_iff.mp h
    exact ⟨rfl, rfl, rfl⟩
  | refundUnrevealed id bidder =>
    obtain ⟨a, stored, -, -, -, rfl⟩ := refundUnrevealed_eq_ok_iff.mp h
    exact ⟨rfl, rfl, rfl⟩
  | withdrawRefund id bidder =>
    obtain ⟨a, -, -, rfl⟩ := withdrawRefund_eq_ok_iff.mp h
    exact ⟨rfl, rfl, rfl⟩
  | closeAuction id =>
    obtain ⟨a, -, hcl⟩ := closes_of_closeAuction h
    cases hcl with
    | finalized =>
      exact ⟨foldl_creditLoser_keeps (·.auctionCount) (fun _ _ _ => rfl) _ _ _,
        foldl_creditLoser_keeps (·.config) (fun _ _ _ => rfl) _ _ _,
        foldl_creditLoser_keeps (·.platformWallet) (fun _ _ _ => rfl) _ _ _⟩
    | _ => exact ⟨rfl, rfl, rfl⟩
  | settleAuction id =>
    obtain ⟨a, -, -, winner, items, wallet, split, -, -, -, -, rfl⟩ :=
      settleAuction_eq_ok_iff.mp h
    exact ⟨rfl, rfl, rfl⟩

/-- **Closing goes the way it can go.** -/
theorem closeAuction_of_closes {a : Auction Address} (ha : s.auctions id = some a)
    (h : Closes env s id a o) : closeAuction env s id = .ok o := by
  -- the tests that come first look at the status
  have hopen : a.status ∈ [AuctionStatus.created, .active] →
      ¬(a.status = .ended ∨ a.status = .settled ∨ a.status = .cancelled) ∧
        ¬(a.status ≠ .active ∧ a.status ≠ .created) := by
    intro hs
    rcases hstatus : a.status with _ | _ | _ | _ | _ <;> simp_all
  simp only [closeAuction, unwrapOr_bind_eq_ok_iff, ha, Option.some.injEq, exists_eq_left']
  rcases h with hidle | ⟨hs, ht, hf, hw⟩ | ⟨hs, ht, hf, hr⟩ | ⟨hs, ht, hf, hd, hw⟩
  · -- one of the three tests sends the call home
    by_cases hover : a.status = .ended ∨ a.status = .settled ∨ a.status = .cancelled
    · exact if_pos hover
    rw [if_neg hover]
    by_cases hearly : env.timestamp < a.endTime
    · exact if_pos hearly
    rw [if_neg hearly]
    refine if_pos ?_
    have hstatus := hidle.resolve_right hearly
    simp only [List.mem_cons, List.not_mem_nil, or_false, not_or] at hstatus
    exact ⟨hstatus.2, hstatus.1⟩
  · rw [if_neg (hopen hs).1, if_neg (not_lt_of_ge ht), if_neg (hopen hs).2, hf]
    dsimp only
    rw [hw]
    rfl
  · rw [if_neg (hopen hs).1, if_neg (not_lt_of_ge ht), if_neg (hopen hs).2]
    rcases hformat : a.format with _ | _ | _
    · dsimp only
      rw [hf hformat]
      rfl
    · rfl
    · exact if_pos (hr hformat)
  · have hs' : a.status ∈ [AuctionStatus.created, .active] := by simp [hs]
    rw [if_neg (hopen hs').1, if_neg (not_lt_of_ge ht), if_neg (hopen hs').2, hf]
    dsimp only
    rw [if_neg]
    · exact finalizeSealedAuction_eq_ok_iff.mpr ⟨a, _, ha, ⟨hf, hs, hd⟩, hw, rfl⟩
    · rintro hempty
      rw [hempty] at hw
      cases hw

/-- **What a call does to an auction is told by its book**, and by the wallet. -/
theorem invoke_congr (h : invoke env s c = .ok o) (hc : c.isGlobal = false)
    (hid : c.target s = some id) (hbook : t.book id = s.book id)
    (hwallet : t.platformWallet = s.platformWallet) :
    ∃ o', invoke env t c = .ok o' ∧ o.SameAt id o' := by
  -- the book is all that a call of an auction reads, besides the wallet at a settlement
  have hauction : t.auctions id = s.auctions id := congrArg Book.auction hbook
  have hcommitments : t.commitments id = s.commitments id := congrArg Book.commitments hbook
  have hrevealed : t.revealed id = s.revealed id := congrArg Book.revealed hbook
  have hrefund : ∀ x, t.refund id x = s.refund id x :=
    fun x => congrArg (fun b : Book Address => b.refund x) hbook
  cases c with
  | initializeContract => cases hc
  | updateConfig => cases hc
  | createAuction => cases hc
  | attestPhysicalItem _ custodian hash =>
    obtain rfl := Option.some.inj hid
    obtain ⟨a, ha, ok, rfl⟩ := attestPhysicalItem_eq_ok_iff.mp h
    refine ⟨_, attestPhysicalItem_eq_ok_iff.mpr ⟨a, hauction.trans ha, ok, rfl⟩, rfl, rfl, rfl, ?_⟩
    simp only [attestOutcome, Storage.book_setAuction_self, hbook]
  | activateAuction =>
    obtain rfl := Option.some.inj hid
    obtain ⟨a, ha, ok, rfl⟩ := activateAuction_eq_ok_iff.mp h
    refine ⟨_, activateAuction_eq_ok_iff.mpr ⟨a, hauction.trans ha, ok, rfl⟩, rfl, rfl, rfl, ?_⟩
    simp only [activateOutcome, Storage.book_setAuction_self, hbook]
  | cancelAuction =>
    obtain rfl := Option.some.inj hid
    obtain ⟨a, ha, ok, rfl⟩ := cancelAuction_eq_ok_iff.mp h
    refine ⟨_, cancelAuction_eq_ok_iff.mpr ⟨a, hauction.trans ha, ok, rfl⟩, rfl, rfl, rfl, ?_⟩
    simp only [cancelOutcome, Storage.book_setAuction_self, hbook]
  | approveNftTransfer =>
    obtain rfl := Option.some.inj hid
    obtain ⟨a, item, ha, ok, rfl⟩ := approveNftTransfer_eq_ok_iff.mp h
    exact ⟨_, approveNftTransfer_eq_ok_iff.mpr ⟨a, item, hauction.trans ha, ok, rfl⟩, rfl, rfl,
      rfl, hbook⟩
  | placeBid _ bidder amount =>
    obtain rfl := Option.some.inj hid
    obtain ⟨a, ha, ok, rfl⟩ := placeBid_eq_ok_iff.mp h
    refine ⟨_, placeBid_eq_ok_iff.mpr ⟨a, hauction.trans ha, ok, rfl⟩, ?_⟩
    unfold placeBidOutcome creditPreviousBidder
    rcases a.highestBidder with _ | previous
    · refine ⟨rfl, rfl, rfl, ?_⟩
      simp only [Storage.book_setAuction_self, hbook]
    · refine ⟨rfl, rfl, rfl, ?_⟩
      simp only [Storage.book_setAuction_self, Storage.book_setRefund_self, hbook, hrefund]
  | buyNow _ buyer maxPrice =>
    obtain rfl := Option.some.inj hid
    obtain ⟨a, ha, ok, rfl⟩ := buyNow_eq_ok_iff.mp h
    refine ⟨_, buyNow_eq_ok_iff.mpr ⟨a, hauction.trans ha, ok, rfl⟩, rfl, rfl, rfl, ?_⟩
    simp only [buyNowOutcome, Storage.book_setAuction_self, hbook]
  | commitBid _ bidder commitment amount =>
    obtain rfl := Option.some.inj hid
    obtain ⟨a, ha, ⟨ok, hn⟩, rfl⟩ := commitBid_eq_ok_iff.mp h
    refine ⟨_, commitBid_eq_ok_iff.mpr ⟨a, hauction.trans ha, ⟨ok, ?_⟩, rfl⟩, rfl, rfl, rfl, ?_⟩
    · rw [hcommitments]
      exact hn
    · simp only [commitBidOutcome, Storage.book_setAuction_self, Storage.book_setCommitment_self,
        hbook]
  | revealBid _ bidder amount salt =>
    obtain rfl := Option.some.inj hid
    obtain ⟨a, stored, ha, hstored, ⟨ok, hn⟩, rfl⟩ := revealBid_eq_ok_iff.mp h
    refine ⟨_, revealBid_eq_ok_iff.mpr ⟨a, stored, hauction.trans ha, ?_, ⟨ok, ?_⟩, rfl⟩, rfl, rfl,
      rfl, ?_⟩
    · rw [hcommitments]
      exact hstored
    · rw [hrevealed]
      exact hn
    · simp only [revealBidOutcome, Storage.book_setRevealed_self, Storage.book_setAuction_self,
        hbook]
  | refundUnrevealed _ bidder =>
    obtain rfl := Option.some.inj hid
    obtain ⟨a, stored, ha, hstored, ⟨ok, hn⟩, rfl⟩ := refundUnrevealed_eq_ok_iff.mp h
    refine ⟨_, refundUnrevealed_eq_ok_iff.mpr ⟨a, stored, hauction.trans ha, ?_, ⟨ok, ?_⟩, rfl⟩,
      rfl, rfl, rfl, ?_⟩
    · rw [hcommitments]
      exact hstored
    · rw [hrevealed]
      exact hn
    · simp only [refundUnrevealedOutcome, Storage.book_setAuction_self,
        Storage.book_setCommitment_self, hbook]
  | withdrawRefund _ bidder =>
    obtain rfl := Option.some.inj hid
    obtain ⟨a, ha, ⟨hauth, hr⟩, rfl⟩ := withdrawRefund_eq_ok_iff.mp h
    refine ⟨_, withdrawRefund_eq_ok_iff.mpr ⟨a, hauction.trans ha, ⟨hauth, ?_⟩, rfl⟩, ?_⟩
    · rw [hrefund]
      exact hr
    · unfold withdrawRefundOutcome
      simp only [hrefund]
      refine ⟨rfl, rfl, rfl, ?_⟩
      simp only [Storage.book_setRefund_self, hbook]
  | closeAuction _ =>
    obtain rfl := Option.some.inj hid
    obtain ⟨a, ha, hcl⟩ := closes_of_closeAuction h
    have ha' := hauction.trans ha
    cases hcl with
    | idle hidle =>
      exact ⟨_, closeAuction_of_closes ha' (.idle hidle), rfl, rfl, rfl, hbook⟩
    | won hs ht hf hw =>
      refine ⟨_, closeAuction_of_closes ha' (.won hs ht hf hw), rfl, rfl, rfl, ?_⟩
      simp only [closeWonOutcome, Storage.book_setAuction_self, hbook]
    | unsold hs ht hf hr =>
      refine ⟨_, closeAuction_of_closes ha' (.unsold hs ht hf hr), rfl, rfl, rfl, ?_⟩
      simp only [closeCancelledOutcome, Storage.book_setAuction_self, hbook]
    | finalized hs ht hf hd hw =>
      refine ⟨_, closeAuction_of_closes ha' (.finalized hs ht hf hd hw), ?_, rfl, rfl, ?_⟩
      · -- the credits publish what the entries say, not what was stored
        exact congrArg (· ++ _) (foldl_creditLoser_events _ _ rfl)
      · simp only [finalizeOutcome, Storage.book_setAuction_self, book_foldl_creditLoser, hbook]
  | settleAuction _ =>
    obtain rfl := Option.some.inj hid
    obtain ⟨a, ha, hs, winner, items, wallet, split, hw, hi, hp, hsp, rfl⟩ :=
      settleAuction_eq_ok_iff.mp h
    refine ⟨_, settleAuction_eq_ok_iff.mpr ⟨a, hauction.trans ha, hs, winner, items, wallet, split,
      hw, hi, hwallet.trans hp, hsp, rfl⟩, rfl, rfl, rfl, ?_⟩
    simp only [settleOutcome, Storage.book_setAuction_self, hbook]

/-! ### Leaving the others out -/

/-- The calls that an auction depends on: those about it, and before it is there, those about the
platform. -/
def Call.Concerns (s : Storage Address) (id : U64) (c : Call Address) : Prop :=
  c.isGlobal = false ∧ c.target s = some id ∨ c.isGlobal = true ∧ s.auctions id = none

instance (s : Storage Address) (id : U64) (c : Call Address) : Decidable (c.Concerns s id) :=
  inferInstanceAs (Decidable (_ ∨ _ ∧ s.auctions id = none))

/-- **Two storages that look the same from an auction.** Before it is there, it looks at what a
creation reads. -/
structure Storage.Like (id : U64) (s t : Storage Address) : Prop where
  book : t.book id = s.book id
  wallet : t.platformWallet = s.platformWallet
  unborn : s.auctions id = none → t.config = s.config ∧ t.auctionCount = s.auctionCount

/-- The code of the contract by itself: a call in an environment that is given. Its token calls are
recorded, and not executed. -/
inductive CodeStep : Storage Address → Invocation Address → Storage Address → Prop
  | call {env : Env Address} {s : Storage Address} {c : Call Address} {o : Outcome Address}
      (room : c.Room s) (returns : invoke env s c = .ok o) : CodeStep s ⟨env, s, c, o⟩ o.storage

/-- The same call in the same environment, which does the same for an auction. -/
structure Invocation.Alike (id : U64) (i j : Invocation Address) : Prop where
  env : j.env = i.env
  call : j.call = i.call
  outcome : i.outcome.SameAt id j.outcome

/-- **A call that concerns an auction can be repeated** on whatever looks the same from there. -/
theorem invoke_like (hs : s.Fresh) (hlike : s.Like id t) (hc : c.Concerns s id)
    (hroom : c.Room s) (h : invoke env s c = .ok o) :
    ∃ o', invoke env t c = .ok o' ∧ c.Room t ∧ o.SameAt id o' ∧ o.storage.Like id o'.storage := by
  rcases hc with ⟨hlocal, hid⟩ | ⟨hglobal, hnone⟩
  · obtain ⟨o', h', hsame⟩ := invoke_congr h hlocal hid hlike.book hlike.wallet
    -- the auction is stored now, so the counters need not agree any more
    have hborn : o.storage.auctions id ≠ none :=
      Option.isSome_iff_ne_none.mp (invoke_book hs h hid).1.isSome
    refine ⟨o', h', ?_, hsame, hsame.book, ?_, fun hcon => absurd hcon hborn⟩
    · cases c with
      | commitBid A bidder commitment amount =>
        obtain rfl := Option.some.inj hid
        intro a ha
        exact hroom a ((congrArg Book.auction hlike.book).symm.trans ha)
      | createAuction => cases hlocal
      | _ => trivial
    · rw [(invoke_global h' hlocal).2.2, (invoke_global h hlocal).2.2, hlike.wallet]
  · obtain ⟨hconfig, hcount⟩ := hlike.unborn hnone
    -- before the creation both storages have the same counters and settings
    have hnext : t.nextId = s.nextId := congrArg (fun n : Option U64 => n.getD 0) hcount
    cases c with
    | initializeContract admin fee maxRoyalty wallet =>
      obtain ⟨⟨hauth, hfirst⟩, rfl⟩ := initializeContract_eq_ok_iff.mp h
      refine ⟨_, initializeContract_eq_ok_iff.mpr ⟨⟨hauth, hconfig.trans hfirst⟩, rfl⟩, trivial,
        ⟨rfl, rfl, rfl, hlike.book⟩, hlike.book, rfl, fun _ => ⟨rfl, rfl⟩⟩
    | updateConfig admin fee maxRoyalty paused =>
      obtain ⟨config, hset, ok, rfl⟩ := updateConfig_eq_ok_iff.mp h
      exact ⟨_, updateConfig_eq_ok_iff.mpr ⟨config, hconfig.trans hset, ok, rfl⟩, trivial,
        ⟨rfl, rfl, rfl, hlike.book⟩, hlike.book, hlike.wallet, fun _ => ⟨rfl, hcount⟩⟩
    | createAuction params =>
      obtain ⟨config, hset, ok, rfl⟩ := createAuction_eq_ok_iff.mp h
      have hbook : (createAuctionOutcome t params config).storage.book id =
          (createAuctionOutcome s params config).storage.book id := by
        simp only [createAuctionOutcome, hnext]
        by_cases hid : id = s.nextId
        · subst hid
          rw [Storage.book_setAuction_self, Storage.book_setAuction_self]
          exact congrArg (fun b : Book Address => b.setAuction _) hlike.book
        · rw [Storage.book_setAuction_of_ne _ hid, Storage.book_setAuction_of_ne _ hid]
          exact hlike.book
      refine ⟨_, createAuction_eq_ok_iff.mpr ⟨config, hconfig.trans hset, ok, rfl⟩, ?_,
        ⟨?_, rfl, ?_, hbook⟩, hbook, hlike.wallet, fun _ => ⟨hconfig, ?_⟩⟩
      · change t.nextId < U64.max
        rw [hnext]
        exact hroom
      · simp only [createAuctionOutcome, hnext]
      · simp only [createAuctionOutcome, hnext]
      · change some (t.nextId.wrappingAdd 1) = some (s.nextId.wrappingAdd 1)
        rw [hnext]
    | _ => cases hglobal

/-- **A call that does not concern an auction** changes nothing of what it looks at. -/
theorem invoke_unlike (hs : s.Fresh) (hlike : s.Like id t) (hc : ¬c.Concerns s id)
    (h : invoke env s c = .ok o) : o.storage.Like id t := by
  -- such a call writes no book but its own
  have hframe : ∀ A, c.target s ≠ some A → o.storage.book A = s.book A := by
    intro A hA
    rcases htarget : c.target s with _ | A'
    · exact (invoke_no_target h htarget).1 A
    · refine (invoke_book hs h htarget).2 A fun hcon => hA ?_
      rw [htarget, hcon]
  rcases hglobal : c.isGlobal with _ | _
  · have hbook := hframe id fun hcon => hc (Or.inl ⟨hglobal, hcon⟩)
    obtain ⟨hcount, hconfig, hwallet⟩ := invoke_global h hglobal
    refine ⟨hlike.book.trans hbook.symm, hlike.wallet.trans hwallet.symm, fun hnone => ?_⟩
    rw [hcount, hconfig]
    exact hlike.unborn ((congrArg Book.auction hbook).symm.trans hnone)
  · -- a call about the platform, when the auction is already there
    have hborn : s.auctions id ≠ none := fun hnone => hc (Or.inr ⟨hglobal, hnone⟩)
    have hconfig : s.config ≠ none := fun hnone => hborn (hs.unconfigured hnone id)
    have hother : c.target s ≠ some id := by
      intro hcon
      cases c with
      | createAuction params =>
        rw [← Option.some.inj hcon] at hborn
        exact hborn hs.next
      | initializeContract => cases hcon
      | updateConfig => cases hcon
      | _ => cases hglobal
    have hbook := hframe id hother
    -- the wallet is written by the setup alone, which does not run twice
    have hwallet : o.storage.platformWallet = s.platformWallet := by
      cases c with
      | initializeContract =>
        exact absurd (initializeContract_eq_ok_iff.mp h).1.2 hconfig
      | updateConfig =>
        obtain ⟨config, -, -, rfl⟩ := updateConfig_eq_ok_iff.mp h
        rfl
      | createAuction =>
        obtain ⟨config, -, -, rfl⟩ := createAuction_eq_ok_iff.mp h
        rfl
      | _ => cases hglobal
    refine ⟨hlike.book.trans hbook.symm, hlike.wallet.trans hwallet.symm, fun hnone => ?_⟩
    exact absurd ((congrArg Book.auction hbook).symm.trans hnone) hborn

/-! ### Along a run -/

variable {H : Host Address} {tr : List (Invocation Address)} {w : World H}

/-- **The history of an auction without the others**: what is left of a run, as a run of the code
by itself, without the balances of the token contracts. -/
structure Undisturbed (id : U64) (tr : List (Invocation Address)) (w : World H)
    (alone : List (Invocation Address)) (s : Storage Address) : Prop where
  /-- It is a run of the code, whose token calls are not executed. -/
  run : History (fun s => s = .empty) CodeStep alone s
  /-- It has the calls that concern the auction, in the environments that they had, and they publish
  the same, ask for the same token calls, return the same and leave the same book. -/
  alike : List.Forall₂ (Invocation.Alike id)
    (tr.filter fun i => i.call.Concerns i.before id) alone
  /-- The auction ends with the same book. -/
  book : s.book id = w.storage.book id
  /-- To one more call about the auction the code answers the same after both, or refuses it after
  both. -/
  next : ∀ env (c : Call Address), c.isGlobal = false → c.target s = some id →
    (∀ o, invoke env w.storage c = .ok o → ∃ o', invoke env s c = .ok o' ∧ o.SameAt id o') ∧
      ∀ o', invoke env s c = .ok o' → ∃ o, invoke env w.storage c = .ok o ∧ o.SameAt id o'

omit [DecidableEq Address] in
/-- Only a creation asks the storage which auction it is about. -/
theorem Call.target_eq (hc : c.isGlobal = false) : c.target t = c.target s := by
  cases c <;> first | rfl | cases hc

/-- **Auctions do not interfere** in the code, in any run: it makes of every auction what it would
have made of it without the others. -/
theorem Run.undisturbed (h : Run H tr w) (id : U64) :
    ∃ alone s, Undisturbed id tr w alone s := by
  have hstart : ∀ w : World H, w.storage = .empty →
      ∃ s : Storage Address, s = .empty ∧ w.storage.Like id s := by
    intro w hw
    rw [hw]
    exact ⟨.empty, rfl, rfl, rfl, fun _ => ⟨rfl, rfl⟩⟩
  -- what the library asks for: a call that concerns the auction can be made alone
  have hkept : ∀ tr w i w' (s : Storage Address), Run H tr w → Step H w i w' →
      decide (i.call.Concerns i.before id) = true → w.storage.Like id s →
        ∃ j s', CodeStep s j s' ∧ i.Alike id j ∧ w'.storage.Like id s' := by
    intro tr w i w' s hpast hs hkeep hlike
    obtain ⟨hbefore, hafter, hret, -, hroom⟩ := hs.returns
    rw [hbefore] at hret hroom hkeep
    obtain ⟨o', ho', hroom', hsame, hlike'⟩ :=
      invoke_like (Run.fresh hpast) hlike (of_decide_eq_true hkeep) hroom hret
    refine ⟨⟨i.env, s, i.call, o'⟩, o'.storage, .call hroom' ho', ⟨rfl, rfl, hsame⟩, ?_⟩
    rw [hafter]
    exact hlike'
  -- and one that does not leaves the storages alike
  have hdropped : ∀ tr w i w' (s : Storage Address), Run H tr w → Step H w i w' →
      decide (i.call.Concerns i.before id) = false → w.storage.Like id s →
        w'.storage.Like id s := by
    intro tr w i w' s hpast hs hdrop hlike
    obtain ⟨hbefore, hafter, hret, -, -⟩ := hs.returns
    rw [hbefore] at hret hdrop
    rw [hafter]
    exact invoke_unlike (Run.fresh hpast) hlike (of_decide_eq_false hdrop) hret
  obtain ⟨alone, s, hrun, halike, hlike⟩ : ∃ alone s,
      History (fun s => s = .empty) CodeStep alone s ∧
        List.Forall₂ (Invocation.Alike id) (tr.filter fun i => i.call.Concerns i.before id) alone ∧
          w.storage.Like id s :=
    History.purge _ hstart hkept hdropped h
  refine ⟨alone, s, hrun, halike, hlike.book, fun env c hc hid => ⟨fun o ho => ?_, ?_⟩⟩
  · exact invoke_congr ho hc ((Call.target_eq hc).trans hid) hlike.book hlike.wallet
  · intro o' ho'
    obtain ⟨o, ho, hsame⟩ := invoke_congr ho' hc hid hlike.book.symm hlike.wallet.symm
    exact ⟨o, ho, hsame.symm⟩

/-- Two auctions: the first is bid for, while the second is attested and bought and the platform is
paused. -/
def Stage.crowded : List (Tx ℕ × Call ℕ) :=
  Stage.opening .english Stage.painting ++
    [(Stage.signed 2 0, .createAuction (Stage.params .dutch Stage.mask)),
      (Stage.signed 2 1, .activateAuction 0),
      (Stage.signed 5 1, .attestPhysicalItem 1 5 (BytesN.replicate 32 1)),
      (Stage.signed 3 (.of 2), .placeBid 0 3 (.of 100)),
      (Stage.signed 1 (.of 2), .updateConfig 1 none none (some true)),
      (Stage.signed 4 (.of 3), .buyNow 1 4 none)]

/-- The theorem at the first auction: four of the eight calls are left. -/
theorem undisturbed_crowded : ∃ (tr : List (Invocation ℕ)) (w : World Stage.host),
    Run Stage.host tr w ∧ tr.length = 8 ∧
      (tr.filter fun i => i.call.Concerns i.before 0).length = 4 ∧
        ∃ alone s, Undisturbed 0 tr w alone s := by
  have hreplay : (replay Stage.start Stage.crowded).map (fun r =>
      (r.1.length, (r.1.filter fun i => i.call.Concerns i.before 0).length)) = some (8, 4) := by
    decide +kernel
  obtain ⟨tr, w, hrun, hv⟩ := exists_run_of_replay Stage.world_refl rfl hreplay
  simp only [Prod.mk.injEq] at hv
  exact ⟨tr, w, hrun, hv.1, hv.2, hrun.undisturbed 0⟩

end UrithiBidz
