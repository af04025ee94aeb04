import UrithiBidz.Book.Basic

/-!
# The contract steps books

`UrithiBidz.Book.Basic` introduced the transition system of one auction. Here the entry
points are connected to it. A call that returns and is about the auction `id` takes the
book of `id` along a step and leaves every other book as it was
(`UrithiBidz.invoke_book`); a call that is about no auction changes no book and moves no
token (`UrithiBidz.invoke_no_target`).

One thing has to be known of the storage for that: a new auction must be written to an
empty page. The ids are handed out by a counter, so this is an invariant of the storage
as a whole, `UrithiBidz.Storage.Fresh`, and the last section shows that every call
preserves it.
-/

namespace UrithiBidz

variable {Address : Type} [DecidableEq Address]

/-! ### Writing to a book -/

namespace Storage

omit [DecidableEq Address] in
@[simp] theorem book_setAuction_self (s : Storage Address) (id : U64) (a : Auction Address) :
    (s.setAuction id a).book id = (s.book id).setAuction a := by
  simp [book, setAuction, Book.setAuction]

omit [DecidableEq Address] in
@[simp] theorem book_setAuction_of_ne (s : Storage Address) {id A : U64} (h : A ≠ id)
    (a : Auction Address) : (s.setAuction id a).book A = s.book A := by
  simp [book, setAuction, h]

@[simp] theorem book_setCommitment_self (s : Storage Address) (id : U64) (x : Address)
    (c : Option (BidCommitment Address)) :
    (s.setCommitment id x c).book id = (s.book id).setCommitment x c := by
  simp [book, setCommitment, Book.setCommitment]

@[simp] theorem book_setCommitment_of_ne (s : Storage Address) {id A : U64} (h : A ≠ id)
    (x : Address) (c : Option (BidCommitment Address)) :
    (s.setCommitment id x c).book A = s.book A := by
  simp [book, setCommitment, h]

@[simp] theorem book_setRevealed_self (s : Storage Address) (id : U64) (x : Address)
    (e : SealedBidEntry Address) :
    (s.setRevealed id x e).book id = (s.book id).setRevealed x e := by
  simp [book, setRevealed, Book.setRevealed]

@[simp] theorem book_setRevealed_of_ne (s : Storage Address) {id A : U64} (h : A ≠ id)
    (x : Address) (e : SealedBidEntry Address) :
    (s.setRevealed id x e).book A = s.book A := by
  simp [book, setRevealed, h]

@[simp] theorem book_setRefund_self (s : Storage Address) (id : U64) (x : Address)
    (amount : Option I128) :
    (s.setRefund id x amount).book id = (s.book id).setRefund x amount := by
  simp [book, setRefund, Book.setRefund]

@[simp] theorem book_setRefund_of_ne (s : Storage Address) {id A : U64} (h : A ≠ id)
    (x : Address) (amount : Option I128) : (s.setRefund id x amount).book A = s.book A := by
  simp [book, setRefund, h]

omit [DecidableEq Address] in
theorem book_congr {s t : Storage Address} (h₁ : t.auctions = s.auctions)
    (h₂ : t.commitments = s.commitments) (h₃ : t.revealed = s.revealed)
    (h₄ : t.refunds = s.refunds) (A : U64) : t.book A = s.book A := by
  simp [book, h₁, h₂, h₃, h₄]

end Storage

/-! ### Crediting the losers -/

theorem book_foldl_creditLoser (id : U64) (winner : SealedBidEntry Address)
    (entries : List (SealedBidEntry Address)) (acc : Storage Address × List (Event Address)) :
    (entries.foldl (creditLoser id winner) acc).1.book id =
      (acc.1.book id).creditLosers winner entries := by
  induction entries generalizing acc with
  | nil => rfl
  | cons entry entries ih =>
    rw [List.foldl_cons, ih, Book.creditLosers, Book.creditLosers, List.foldl_cons]
    congr 1
    unfold creditLoser
    split
    · exact Storage.book_setRefund_self _ _ _ _
    · rfl

theorem book_foldl_creditLoser_of_ne {id A : U64} (h : A ≠ id) (winner : SealedBidEntry Address)
    (entries : List (SealedBidEntry Address)) (acc : Storage Address × List (Event Address)) :
    (entries.foldl (creditLoser id winner) acc).1.book A = acc.1.book A := by
  induction entries generalizing acc with
  | nil => rfl
  | cons entry entries ih =>
    rw [List.foldl_cons, ih]
    unfold creditLoser
    split
    · exact Storage.book_setRefund_of_ne _ h _ _
    · rfl

theorem foldl_creditLoser_globals (id : U64) (winner : SealedBidEntry Address)
    (entries : List (SealedBidEntry Address)) (acc : Storage Address × List (Event Address)) :
    (entries.foldl (creditLoser id winner) acc).1.auctionCount = acc.1.auctionCount ∧
      (entries.foldl (creditLoser id winner) acc).1.config = acc.1.config := by
  induction entries generalizing acc with
  | nil => exact ⟨rfl, rfl⟩
  | cons entry entries ih =>
    rw [List.foldl_cons]
    obtain ⟨h₁, h₂⟩ := ih (creditLoser id winner acc entry)
    have hstep : (creditLoser id winner acc entry).1.auctionCount = acc.1.auctionCount ∧
        (creditLoser id winner acc entry).1.config = acc.1.config := by
      unfold creditLoser
      split <;> exact ⟨rfl, rfl⟩
    exact ⟨h₁.trans hstep.1, h₂.trans hstep.2⟩

/-! ### The refinement -/

/-- No auction is stored under an id that has not been handed out. -/
structure Storage.Fresh (s : Storage Address) : Prop where
  /-- Ids are handed out in order. -/
  below : ∀ {A a}, s.auctions A = some a → A < s.nextId
  /-- There are none before the platform is set up. -/
  unconfigured : s.config = none → ∀ A, s.auctions A = none

omit [DecidableEq Address] in
theorem Storage.Fresh.next {s : Storage Address} (h : s.Fresh) : s.auctions s.nextId = none := by
  cases ha : s.auctions s.nextId with
  | none => rfl
  | some a => exact absurd (h.below ha) (lt_irrefl s.nextId.val)

variable {env : Env Address} {s : Storage Address} {c : Call Address} {o : Outcome Address}

theorem QuietStep.steps_book {id : U64} {a a' : Auction Address}
    {calls : List (TokenCall Address)} (h : QuietStep env id c a a' calls)
    (ha : s.auctions id = some a) :
    BookStep env id c (s.book id) ((s.setAuction id a').book id) calls ∧
      ∀ A, A ≠ id → (s.setAuction id a').book A = s.book A := by
  refine ⟨?_, fun A hA => Storage.book_setAuction_of_ne _ hA _⟩
  rw [Storage.book_setAuction_self]
  exact .quiet ha h

/-- **A call that returns steps the book it is about**, makes the token calls of that step,
and touches no other book. -/
theorem invoke_book (hs : s.Fresh) (h : invoke env s c = .ok o) {id : U64}
    (hid : c.target s = some id) :
    BookStep env id c (s.book id) (o.storage.book id) o.calls ∧
      ∀ A, A ≠ id → o.storage.book A = s.book A := by
  cases c with
  | initializeContract => cases hid
  | updateConfig => cases hid
  | createAuction params =>
    obtain rfl : s.nextId = id := Option.some.inj hid
    obtain ⟨config, -, ok, rfl⟩ := createAuction_eq_ok_iff.mp h
    refine ⟨?_, fun A hA => ?_⟩
    · rw [createAuctionOutcome, Storage.book_setAuction_self]
      exact .create hs.next ok
    · rw [createAuctionOutcome, Storage.book_setAuction_of_ne _ hA]
      exact Storage.book_congr rfl rfl rfl rfl A
  | attestPhysicalItem _ custodian hash =>
    obtain rfl := Option.some.inj hid
    obtain ⟨a, ha, ⟨hauth, item, hi, hc⟩, rfl⟩ := attestPhysicalItem_eq_ok_iff.mp h
    exact QuietStep.steps_book (.attest hauth hi hc) ha
  | activateAuction =>
    obtain rfl := Option.some.inj hid
    obtain ⟨a, ha, ok, rfl⟩ := activateAuction_eq_ok_iff.mp h
    exact QuietStep.steps_book (.activate ok) ha
  | cancelAuction =>
    obtain rfl := Option.some.inj hid
    obtain ⟨a, ha, ok, rfl⟩ := cancelAuction_eq_ok_iff.mp h
    exact QuietStep.steps_book (.cancel ok) ha
  | approveNftTransfer =>
    obtain rfl := Option.some.inj hid
    obtain ⟨a, item, ha, ⟨-, hi, -⟩, rfl⟩ := approveNftTransfer_eq_ok_iff.mp h
    exact ⟨QuietStep.bookStep_self (.approve hi rfl) ha, fun A _ => rfl⟩
  | placeBid id bidder amount =>
    obtain rfl := Option.some.inj hid
    obtain ⟨a, ha, ok, rfl⟩ := placeBid_eq_ok_iff.mp h
    unfold placeBidOutcome creditPreviousBidder
    -- the first bid displaces nobody
    cases hp : a.highestBidder with
    | none =>
      refine ⟨?_, fun A hA => Storage.book_setAuction_of_ne _ hA _⟩
      dsimp only
      rw [Storage.book_setAuction_self]
      exact .firstBid ha ok hp
    | some previous =>
      refine ⟨?_, fun A hA => ?_⟩
      · dsimp only
        rw [Storage.book_setAuction_self, Storage.book_setRefund_self]
        exact .outbid ha ok hp
      · dsimp only
        rw [Storage.book_setAuction_of_ne _ hA, Storage.book_setRefund_of_ne _ hA]
  | buyNow id buyer maxPrice =>
    obtain rfl := Option.some.inj hid
    obtain ⟨a, ha, ok, rfl⟩ := buyNow_eq_ok_iff.mp h
    refine ⟨?_, fun A hA => Storage.book_setAuction_of_ne _ hA _⟩
    dsimp only [buyNowOutcome]
    rw [Storage.book_setAuction_self]
    exact .buy ha ok
  | commitBid id bidder commitment amount =>
    obtain rfl := Option.some.inj hid
    obtain ⟨a, ha, ⟨ok, hn⟩, rfl⟩ := commitBid_eq_ok_iff.mp h
    refine ⟨?_, fun A hA => ?_⟩
    · dsimp only [commitBidOutcome]
      rw [Storage.book_setAuction_self, Storage.book_setCommitment_self]
      exact .commit ha ok hn
    · dsimp only [commitBidOutcome]
      rw [Storage.book_setAuction_of_ne _ hA, Storage.book_setCommitment_of_ne _ hA]
  | revealBid id bidder amount salt =>
    obtain rfl := Option.some.inj hid
    obtain ⟨a, stored, ha, hc, ⟨ok, hn⟩, rfl⟩ := revealBid_eq_ok_iff.mp h
    refine ⟨?_, fun A hA => ?_⟩
    · dsimp only [revealBidOutcome]
      rw [Storage.book_setRevealed_self, Storage.book_setAuction_self]
      exact .reveal ha hc ok hn
    · dsimp only [revealBidOutcome]
      rw [Storage.book_setRevealed_of_ne _ hA, Storage.book_setAuction_of_ne _ hA]
  | refundUnrevealed id bidder =>
    obtain rfl := Option.some.inj hid
    obtain ⟨a, stored, ha, hc, ⟨ok, hn⟩, rfl⟩ := refundUnrevealed_eq_ok_iff.mp h
    refine ⟨?_, fun A hA => ?_⟩
    · dsimp only [refundUnrevealedOutcome]
      rw [Storage.book_setAuction_self, Storage.book_setCommitment_self]
      exact .takeBack ha hc ok hn
    · dsimp only [refundUnrevealedOutcome]
      rw [Storage.book_setAuction_of_ne _ hA, Storage.book_setCommitment_of_ne _ hA]
  | withdrawRefund id bidder =>
    obtain rfl := Option.some.inj hid
    obtain ⟨a, ha, ⟨hauth, hr⟩, rfl⟩ := withdrawRefund_eq_ok_iff.mp h
    refine ⟨?_, fun A hA => Storage.book_setRefund_of_ne _ hA _ _⟩
    dsimp only [withdrawRefundOutcome]
    rw [Storage.book_setRefund_self]
    exact .withdraw ha hauth hr
  | closeAuction id =>
    obtain rfl := Option.some.inj hid
    obtain ⟨a, ha, hcl⟩ := closes_of_closeAuction h
    cases hcl with
    | idle hidle => exact ⟨QuietStep.bookStep_self (.idle hidle) ha, fun A _ => rfl⟩
    | won hst ht hf hw => exact QuietStep.steps_book (.won hst ht hf hw) ha
    | unsold hst ht hf hr => exact QuietStep.steps_book (.unsold hst ht hf hr) ha
    | finalized hst ht hf hd hw =>
      refine ⟨?_, fun A hA => ?_⟩
      · dsimp only [finalizeOutcome]
        -- the credits are written before the record, and both belong to the book
        rw [Storage.book_setAuction_self, book_foldl_creditLoser]
        exact .finalize ha hst ht hf hd hw
      · dsimp only [finalizeOutcome]
        rw [Storage.book_setAuction_of_ne _ hA, book_foldl_creditLoser_of_ne hA]
  | settleAuction id =>
    obtain rfl := Option.some.inj hid
    obtain ⟨a, ha, hst, winner, items, wallet, split, hw, hi, -, hsp, rfl⟩ :=
      settleAuction_eq_ok_iff.mp h
    exact QuietStep.steps_book (.settle hst hw hi hsp) ha

/-- **A call that is about no auction changes no book** and moves no token. -/
theorem invoke_no_target (h : invoke env s c = .ok o)
    (hc : c.target s = none) : (∀ A, o.storage.book A = s.book A) ∧ o.calls = [] := by
  cases c with
  | initializeContract admin fee maxRoyalty wallet =>
    obtain ⟨-, rfl⟩ := initializeContract_eq_ok_iff.mp h
    exact ⟨fun A => rfl, rfl⟩
  | updateConfig admin fee maxRoyalty paused =>
    obtain ⟨config, -, -, rfl⟩ := updateConfig_eq_ok_iff.mp h
    exact ⟨fun A => rfl, rfl⟩
  | _ => cases hc

/-! ### The ids -/

/-- What a call other than a creation does to the counter: setting up starts it, and every
other call leaves it alone, together with whether there are settings. -/
theorem invoke_counter (h : invoke env s c = .ok o) (hc : ∀ params, c ≠ .createAuction params) :
    s.config = none ∧ o.storage.nextId = 0 ∨
      o.storage.nextId = s.nextId ∧ (o.storage.config = none ↔ s.config = none) := by
  cases c with
  | initializeContract admin fee maxRoyalty wallet =>
    obtain ⟨⟨-, hn⟩, rfl⟩ := initializeContract_eq_ok_iff.mp h
    exact Or.inl ⟨hn, rfl⟩
  | updateConfig admin fee maxRoyalty paused =>
    obtain ⟨config, hconfig, -, rfl⟩ := updateConfig_eq_ok_iff.mp h
    exact Or.inr ⟨rfl, by simp [updateConfigOutcome, hconfig]⟩
  | createAuction params => exact absurd rfl (hc params)
  | attestPhysicalItem _ custodian hash =>
    obtain ⟨a, -, -, rfl⟩ := attestPhysicalItem_eq_ok_iff.mp h
    exact Or.inr ⟨rfl, Iff.rfl⟩
  | activateAuction =>
    obtain ⟨a, -, -, rfl⟩ := activateAuction_eq_ok_iff.mp h
    exact Or.inr ⟨rfl, Iff.rfl⟩
  | cancelAuction =>
    obtain ⟨a, -, -, rfl⟩ := cancelAuction_eq_ok_iff.mp h
    exact Or.inr ⟨rfl, Iff.rfl⟩
  | approveNftTransfer =>
    obtain ⟨a, item, -, -, rfl⟩ := approveNftTransfer_eq_ok_iff.mp h
    exact Or.inr ⟨rfl, Iff.rfl⟩
  | placeBid id bidder amount =>
    obtain ⟨a, -, -, rfl⟩ := placeBid_eq_ok_iff.mp h
    unfold placeBidOutcome creditPreviousBidder
    cases a.highestBidder <;> exact Or.inr ⟨rfl, Iff.rfl⟩
  | buyNow id buyer maxPrice =>
    obtain ⟨a, -, -, rfl⟩ := buyNow_eq_ok_iff.mp h
    exact Or.inr ⟨rfl, Iff.rfl⟩
  | commitBid id bidder commitment amount =>
    obtain ⟨a, -, -, rfl⟩ := commitBid_eq_ok_iff.mp h
    exact Or.inr ⟨rfl, Iff.rfl⟩
  | revealBid id bidder amount salt =>
    obtain ⟨a, stored, -, -, -, rfl⟩ := revealBid_eq_ok_iff.mp h
    exact Or.inr ⟨rfl, Iff.rfl⟩
  | refundUnrevealed id bidder =>
    obtain ⟨a, stored, -, -, -, rfl⟩ := refundUnrevealed_eq_ok_iff.mp h
    exact Or.inr ⟨rfl, Iff.rfl⟩
  | withdrawRefund id bidder =>
    obtain ⟨a, -, -, rfl⟩ := withdrawRefund_eq_ok_iff.mp h
    exact Or.inr ⟨rfl, Iff.rfl⟩
  | closeAuction id =>
    obtain ⟨a, -, hcl⟩ := closes_of_closeAuction h
    cases hcl with
    | finalized =>
      -- the credits of the losers touch neither the counter nor the settings
      obtain ⟨h₁, h₂⟩ := foldl_creditLoser_globals id _ a.revealedBids (s, [])
      refine Or.inr ⟨?_, ?_⟩
      · exact congrArg (fun n : Option U64 => n.getD 0) h₁
      · exact iff_of_eq (congrArg (fun cfg => cfg = none) h₂)
    | _ => exact Or.inr ⟨rfl, Iff.rfl⟩
  | settleAuction id =>
    obtain ⟨a, -, -, winner, items, wallet, split, -, -, -, -, rfl⟩ :=
      settleAuction_eq_ok_iff.mp h
    exact Or.inr ⟨rfl, Iff.rfl⟩

theorem BookStep.isSome_of_isSome {id : U64} {b b' : Book Address}
    {calls : List (TokenCall Address)} (h : BookStep env id c b b' calls)
    (hc : ∀ params, c ≠ .createAuction params) (ha : b'.auction.isSome) : b.auction.isSome := by
  cases h with
  | create => exact absurd rfl (hc _)
  | withdraw hb => simp [hb]
  | _ hb => simp [hb]

/-- **Ids stay fresh**, as long as the counter does not wrap. -/
theorem Storage.Fresh.invoke (hs : s.Fresh) (h : invoke env s c = .ok o)
    (hcount : ∀ params, c = .createAuction params → s.nextId < U64.max) : o.storage.Fresh := by
  -- only a creation stores an auction where there was none
  have hkeep : ∀ A a, o.storage.auctions A = some a →
      (∃ a, s.auctions A = some a) ∨ c.target s = some A ∧ ∃ params, c = .createAuction params := by
    intro A a ha
    by_cases hA : c.target s = some A
    · by_cases hc : ∃ params, c = .createAuction params
      · exact Or.inr ⟨hA, hc⟩
      · have hstep := (invoke_book hs h hA).1
        have := hstep.isSome_of_isSome (fun params hp => hc ⟨params, hp⟩)
          (by simp [Storage.book, ha])
        exact Or.inl (Option.isSome_iff_exists.mp this)
    · have hsame : o.storage.book A = s.book A := by
        cases hid : c.target s with
        | none => exact (invoke_no_target h hid).1 A
        | some id => exact (invoke_book hs h hid).2 A fun hAi => hA (by rw [hid, hAi])
      exact Or.inl ⟨a, (congrArg Book.auction hsame).symm.trans ha⟩
  by_cases hcreates : ∃ params, c = .createAuction params
  · -- the new auction is stored under the last id that was handed out
    obtain ⟨params, rfl⟩ := hcreates
    obtain ⟨config, hconfig, -, rfl⟩ := createAuction_eq_ok_iff.mp h
    have hval : (s.nextId.wrappingAdd 1).val = s.nextId.val + 1 :=
      U64.val_wrappingAdd_one (hcount params rfl)
    have hset : s.config ≠ none := fun hnone => Option.some_ne_none _ (hconfig.symm.trans hnone)
    refine ⟨fun {A a} ha => ?_, fun hnone => absurd hnone hset⟩
    change A.val < (s.nextId.wrappingAdd 1).val
    rw [hval]
    rcases hkeep A a ha with ⟨a', ha'⟩ | ⟨hid, -⟩
    · have hold := Ranged.lt_iff.mp (hs.below ha')
      omega
    · obtain rfl : s.nextId = A := Option.some.inj hid
      omega
  · -- nothing is created, so that the ids in use stay below a counter that stays
    have hold : ∀ A a, o.storage.auctions A = some a → ∃ a, s.auctions A = some a :=
      fun A a ha => (hkeep A a ha).resolve_right fun hid => hcreates hid.2
    have hempty : s.config = none → ∀ A, o.storage.auctions A = none := fun hnone A => by
      cases ha : o.storage.auctions A with
      | none => rfl
      | some a =>
        obtain ⟨a', ha'⟩ := hold A a ha
        exact absurd (ha'.symm.trans (hs.unconfigured hnone A)) (Option.some_ne_none _)
    rcases invoke_counter h fun params hc => hcreates ⟨params, hc⟩ with ⟨hnone, -⟩ |
      ⟨hnext, hconfig⟩
    · exact ⟨fun {A a} ha => absurd (ha.symm.trans (hempty hnone A)) (Option.some_ne_none _),
        fun _ => hempty hnone⟩
    · refine ⟨fun {A a} ha => ?_, fun hnone => hempty (hconfig.mp hnone)⟩
      obtain ⟨a', ha'⟩ := hold A a ha
      rw [hnext]
      exact hs.below ha'

end UrithiBidz
