import UrithiBidz.Contract.Dutch
import UrithiBidz.Contract.English
import UrithiBidz.Contract.Settlement

/-!
# The entry points of the contract

A call names an entry point and gives its arguments; `UrithiBidz.invoke` runs it. The
queries, which change nothing, are not calls. What a call publishes is said once for all of them
(`UrithiBidz.Publishes`).
-/

namespace UrithiBidz

variable {Address : Type}

variable (Address) in
/-- A call of the contract. -/
inductive Call
  | initializeContract (admin : Address) (defaultPlatformFeeBps maxRoyaltyBps : U32)
      (platformWallet : Address)
  | createAuction (params : CreateAuctionParams Address)
  | attestPhysicalItem (auctionId : U64) (custodian : Address) (attestationHash : BytesN 32)
  | activateAuction (auctionId : U64)
  | cancelAuction (auctionId : U64)
  | approveNftTransfer (auctionId : U64)
  | placeBid (auctionId : U64) (bidder : Address) (bidAmount : I128)
  | buyNow (auctionId : U64) (buyer : Address) (maxPrice : Option I128)
  | commitBid (auctionId : U64) (bidder : Address) (commitment : BytesN 32) (bidAmount : I128)
  | revealBid (auctionId : U64) (bidder : Address) (bidAmount : I128) (salt : BytesN 32)
  | refundUnrevealed (auctionId : U64) (bidder : Address)
  | withdrawRefund (auctionId : U64) (bidder : Address)
  | closeAuction (auctionId : U64)
  | settleAuction (auctionId : U64)
  | updateConfig (admin : Address) (newFeeBps newMaxRoyaltyBps : Option U32)
      (paused : Option Bool)
  deriving DecidableEq

/-- The auction a call is about; a creation is about the one it creates. -/
def Call.target (s : Storage Address) : Call Address → Option U64
  | .initializeContract .. => none
  | .createAuction _ => some s.nextId
  | .attestPhysicalItem id _ _ => some id
  | .activateAuction id => some id
  | .cancelAuction id => some id
  | .approveNftTransfer id => some id
  | .placeBid id _ _ => some id
  | .buyNow id _ _ => some id
  | .commitBid id _ _ _ => some id
  | .revealBid id _ _ _ => some id
  | .refundUnrevealed id _ => some id
  | .withdrawRefund id _ => some id
  | .closeAuction id => some id
  | .settleAuction id => some id
  | .updateConfig .. => none

/-- Run a call. -/
def invoke [DecidableEq Address] (env : Env Address) (s : Storage Address) :
    Call Address → Except String (Outcome Address)
  | .initializeContract admin fee maxRoyalty wallet =>
    initializeContract env s admin fee maxRoyalty wallet
  | .createAuction params => createAuction env s params
  | .attestPhysicalItem id custodian hash => attestPhysicalItem env s id custodian hash
  | .activateAuction id => activateAuction env s id
  | .cancelAuction id => cancelAuction env s id
  | .approveNftTransfer id => approveNftTransfer env s id
  | .placeBid id bidder amount => placeBid env s id bidder amount
  | .buyNow id buyer maxPrice => buyNow env s id buyer maxPrice
  | .commitBid id bidder commitment amount => commitBid env s id bidder commitment amount
  | .revealBid id bidder amount salt => revealBid env s id bidder amount salt
  | .refundUnrevealed id bidder => refundUnrevealed env s id bidder
  | .withdrawRefund id bidder => withdrawRefund env s id bidder
  | .closeAuction id => closeAuction env s id
  | .settleAuction id => settleAuction env s id
  | .updateConfig admin fee maxRoyalty paused => updateConfig env s admin fee maxRoyalty paused

variable (Address) in
/-- A call that returned: what it saw, what it was, and what it did. -/
structure Invocation where
  env : Env Address
  before : Storage Address
  call : Call Address
  outcome : Outcome Address

/-- Whether a call was about an auction. -/
def Invocation.About (id : U64) (i : Invocation Address) : Prop :=
  i.call.target i.before = some id

instance (id : U64) (i : Invocation Address) : Decidable (i.About id) :=
  inferInstanceAs (Decidable (i.call.target i.before = some id))

/-- The counters that a call advances are not at the end of their range. The source adds one
to them with a plain `+`, which wraps in one build profile and panics in the other, and it
takes `2 ^ 64` calls to get there. -/
def Call.Room (s : Storage Address) : Call Address → Prop
  | .createAuction _ => s.nextId < U64.max
  | .commitBid id _ _ _ => ∀ auction ∈ s.auctions id, auction.bidderCount < U64.max
  | _ => True

instance (s : Storage Address) (c : Call Address) : Decidable (c.Room s) := by
  cases c <;> unfold Call.Room <;> infer_instance

/-! ### What a call publishes -/

/-- The names of the events, other than that of a bid that was placed. -/
def otherNames : List String :=
  ["auc_new", "auc_ext", "bid_out", "bid_ref", "cmt_stor", "bid_rev", "auc_end", "auc_set",
    "att_rec", "auc_cxl", "nft_appr", "urv_ref"]

/-- The event has one of the other names. -/
def Event.Other (e : Event Address) : Prop :=
  ∃ name ∈ otherNames, ∃ topics, e.topics = .symbol name :: topics

/-- The call publishes that a bid was placed. -/
def Call.placesBid : Call Address → Bool
  | .placeBid .. => true
  | .buyNow .. => true
  | _ => false

/-- **What a call publishes**: a bid that was placed, if it is one, and other events. -/
inductive Publishes : Call Address → List (Event Address) → Prop
  | silent {c : Call Address} {events : List (Event Address)} (hc : c.placesBid = false)
      (hother : ∀ e ∈ events, e.Other) : Publishes c events
  | placed {id now : U64} {bidder : Address} {amount : I128} {before : List (Event Address)}
      (hother : ∀ e ∈ before, e.Other) : Publishes (.placeBid id bidder amount)
        (before ++ [emitBidPlaced ⟨id, bidder, amount, now, .english⟩])
  | bought {id now : U64} {buyer : Address} {maxPrice : Option I128} {price : I128}
      {later : List (Event Address)} (hother : ∀ e ∈ later, e.Other) :
      Publishes (.buyNow id buyer maxPrice)
        (emitBidPlaced ⟨id, buyer, price, now, .dutch⟩ :: later)

theorem Event.other_nil : ∀ e ∈ ([] : List (Event Address)), e.Other :=
  fun _ he => absurd he List.not_mem_nil

theorem Event.other_singleton {e₀ : Event Address} {name : String} {topics : List (ScVal Address)}
    (h : e₀.topics = .symbol name :: topics) (hname : name ∈ otherNames := by decide) :
    ∀ e ∈ [e₀], e.Other := by
  intro e he
  rw [List.mem_singleton.mp he]
  exact ⟨name, hname, topics, h⟩

theorem Event.other_append {events events' : List (Event Address)} (h : ∀ e ∈ events, e.Other)
    (h' : ∀ e ∈ events', e.Other) : ∀ e ∈ events ++ events', e.Other := fun e he =>
  (List.mem_append.mp he).elim (h e) (h' e)

variable [DecidableEq Address]

theorem other_foldl_creditLoser {auctionId : U64} {winner : SealedBidEntry Address}
    {entries : List (SealedBidEntry Address)} {acc : Storage Address × List (Event Address)}
    (h : ∀ e ∈ acc.2, e.Other) :
    ∀ e ∈ (entries.foldl (creditLoser auctionId winner) acc).2, e.Other := by
  induction entries generalizing acc with
  | nil => exact h
  | cons entry entries ih =>
    refine ih ?_
    rw [creditLoser]
    split
    · exact Event.other_append h (Event.other_singleton rfl)
    · exact h

theorem other_creditPreviousBidder (s : Storage Address) (auctionId : U64)
    (auction : Auction Address) :
    ∀ e ∈ (creditPreviousBidder s auctionId auction).2, e.Other := by
  unfold creditPreviousBidder
  split
  · exact Event.other_singleton rfl
  · exact Event.other_nil

/-- **What a call publishes**, whatever it is. -/
theorem publishes_of_invoke {env : Env Address} {s : Storage Address} {c : Call Address}
    {o : Outcome Address} (h : invoke env s c = .ok o) : Publishes c o.events := by
  cases c with
  | initializeContract admin fee maxRoyalty wallet =>
    obtain ⟨-, rfl⟩ := initializeContract_eq_ok_iff.mp h
    exact .silent rfl Event.other_nil
  | updateConfig admin fee maxRoyalty paused =>
    obtain ⟨config, -, -, rfl⟩ := updateConfig_eq_ok_iff.mp h
    exact .silent rfl Event.other_nil
  | createAuction params =>
    obtain ⟨config, -, -, rfl⟩ := createAuction_eq_ok_iff.mp h
    exact .silent rfl (Event.other_singleton rfl)
  | attestPhysicalItem id custodian hash =>
    obtain ⟨a, -, -, rfl⟩ := attestPhysicalItem_eq_ok_iff.mp h
    exact .silent rfl (Event.other_singleton rfl)
  | activateAuction id =>
    obtain ⟨a, -, -, rfl⟩ := activateAuction_eq_ok_iff.mp h
    exact .silent rfl Event.other_nil
  | cancelAuction id =>
    obtain ⟨a, -, -, rfl⟩ := cancelAuction_eq_ok_iff.mp h
    exact .silent rfl (Event.other_singleton rfl)
  | approveNftTransfer id =>
    obtain ⟨a, item, -, -, rfl⟩ := approveNftTransfer_eq_ok_iff.mp h
    exact .silent rfl (Event.other_singleton rfl)
  | placeBid id bidder amount =>
    obtain ⟨a, -, -, rfl⟩ := placeBid_eq_ok_iff.mp h
    refine .placed (Event.other_append (other_creditPreviousBidder s id a) ?_)
    split
    · exact Event.other_singleton rfl
    · exact Event.other_nil
  | buyNow id buyer maxPrice =>
    obtain ⟨a, -, -, rfl⟩ := buyNow_eq_ok_iff.mp h
    exact .bought (Event.other_singleton rfl)
  | commitBid id bidder commitment amount =>
    obtain ⟨a, -, -, rfl⟩ := commitBid_eq_ok_iff.mp h
    exact .silent rfl (Event.other_singleton rfl)
  | revealBid id bidder amount salt =>
    obtain ⟨a, stored, -, -, -, rfl⟩ := revealBid_eq_ok_iff.mp h
    exact .silent rfl (Event.other_singleton rfl)
  | refundUnrevealed id bidder =>
    obtain ⟨a, stored, -, -, -, rfl⟩ := refundUnrevealed_eq_ok_iff.mp h
    exact .silent rfl (Event.other_singleton rfl)
  | withdrawRefund id bidder =>
    obtain ⟨a, -, -, rfl⟩ := withdrawRefund_eq_ok_iff.mp h
    exact .silent rfl (Event.other_singleton rfl)
  | closeAuction id =>
    obtain ⟨a, -, hcloses⟩ := closes_of_closeAuction h
    refine .silent rfl ?_
    cases hcloses with
    | idle => exact Event.other_nil
    | won => exact Event.other_singleton rfl
    | unsold => exact Event.other_singleton rfl
    | finalized =>
      exact Event.other_append (other_foldl_creditLoser Event.other_nil)
        (Event.other_singleton rfl)
  | settleAuction id =>
    obtain ⟨a, -, -, winner, items, wallet, split, -, -, -, -, rfl⟩ :=
      settleAuction_eq_ok_iff.mp h
    exact .silent rfl (Event.other_singleton rfl)

end UrithiBidz
