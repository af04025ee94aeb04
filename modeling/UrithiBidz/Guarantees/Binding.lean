import UrithiBidz.Ledger.Replay

/-!
# Commitments are binding

The message that a commitment authenticates is three texts put next to each other, with
nothing between them: sixteen bytes of amount, eight of auction id, and the text of the
bidder's address, cut off after 64. The first two have a fixed length and write a machine
integer completely (`beBytes_inj_of_lt`), and the third is the rest. So the message determines
amount, auction and bidder, as long as no address has a text that is longer than the buffer
(`UrithiBidz.buildCommitmentMessage_inj`).

A reveal is checked against the stored commitment only, so which bids a commitment can be
opened to is a question about the keyed hash. No hash function of 32 bytes is injective on all
messages. What is assumed is that none of the messages in some set collide under the salt, and
what follows is that a commitment is opened to one of them at most
(`UrithiBidz.Host.binds`).
-/

namespace UrithiBidz

variable {Address : Type}

/-- **The message determines amount, auction and bidder.** -/
theorem buildCommitmentMessage_inj {env : Env Address}
    (hinj : Function.Injective env.addressToString)
    (hlen : ∀ x, (env.addressToString x).length ≤ 64) {amount amount' : I128} {id id' : U64}
    {x x' : Address} (h : buildCommitmentMessage env amount id x =
      buildCommitmentMessage env amount' id' x') : amount = amount' ∧ id = id' ∧ x = x' := by
  obtain ⟨hnumbers, htext⟩ := List.append_inj h (by simp)
  obtain ⟨hamount, hid⟩ := List.append_inj hnumbers (by simp)
  have h₁ : amount.val = amount'.val :=
    beBytes_inj_of_lt amount.lo_le amount'.lo_le (lt_of_le_of_lt amount.le_hi (by norm_num))
      (lt_of_le_of_lt amount'.le_hi (by norm_num)) hamount
  have h₂ : id.val = id'.val :=
    beBytes_inj_of_lt id.lo_le id'.lo_le (lt_of_le_of_lt id.le_hi (by norm_num))
      (lt_of_le_of_lt id'.le_hi (by norm_num)) hid
  rw [List.take_of_length_le (hlen x), List.take_of_length_le (hlen x')] at htext
  exact ⟨Ranged.ext h₁, Ranged.ext h₂, hinj htext⟩

variable [DecidableEq Address] {H : Host Address}

/-- **A commitment can be opened to a bid**: in some state in which it is on record for the
bidder, the reveal of the amount with the salt is accepted. -/
def Host.Opens (H : Host Address) (commitment salt : BytesN 32) (id : U64) (x : Address)
    (amount : I128) : Prop :=
  ∃ (t : H.Tokens) (tx : Tx Address) (s : Storage Address) (stored : BidCommitment Address)
    (o : Outcome Address), s.commitments id x = some stored ∧ stored.commitment = commitment ∧
      revealBid (H.env t tx) s id x amount salt = .ok o

/-- Whatever a commitment is opened to, it is the keyed hash of the message. -/
theorem Host.Opens.eq_hmacSha256 {commitment salt : BytesN 32} {id : U64} {x : Address}
    {amount : I128} (h : H.Opens commitment salt id x amount) (t : H.Tokens) (tx : Tx Address) :
    commitment =
      hmacSha256 (H.env t tx) salt (buildCommitmentMessage (H.env t tx) amount id x) := by
  obtain ⟨t', tx', s, stored, o, hstored, rfl, hret⟩ := h
  obtain ⟨a, stored', -, hstored', ⟨ok, -⟩, -⟩ := revealBid_eq_ok_iff.mp hret
  obtain rfl := Option.some.inj (hstored.symm.trans hstored')
  -- neither the hash nor the message depends on the time or the tokens
  exact ok.verified.symm

/-- **A commitment binds the auction, the bidder and the amount**, if addresses have different
texts of at most 64 bytes: the messages of different bids differ, and among bids whose messages
do not collide under the salt, a commitment can be opened to one with that salt and to no
other. -/
theorem Host.binds (hinj : Function.Injective H.addressToString)
    (hlen : ∀ x, (H.addressToString x).length ≤ 64) (t : H.Tokens) (tx : Tx Address) :
    (∀ amount amount' id id' x x', buildCommitmentMessage (H.env t tx) amount id x =
      buildCommitmentMessage (H.env t tx) amount' id' x' →
        amount = amount' ∧ id = id' ∧ x = x') ∧
    ∀ (commitment salt : BytesN 32) (M : Set (List UInt8)),
      M.InjOn (hmacSha256 (H.env t tx) salt) → ∀ amount amount' id id' x x',
        buildCommitmentMessage (H.env t tx) amount id x ∈ M →
        buildCommitmentMessage (H.env t tx) amount' id' x' ∈ M →
        H.Opens commitment salt id x amount → H.Opens commitment salt id' x' amount' →
          amount = amount' ∧ id = id' ∧ x = x' := by
  refine ⟨fun _ _ _ _ _ _ h => buildCommitmentMessage_inj hinj hlen h, ?_⟩
  intro commitment salt M hfree amount amount' id id' x x' hm hm' hopen hopen'
  have hsame := (hopen.eq_hmacSha256 t tx).symm.trans (hopen'.eq_hmacSha256 t tx)
  exact buildCommitmentMessage_inj hinj hlen (hfree hm hm' hsame)

/-! ### A host with few accounts -/

/-- A host with 26 accounts, whose texts are those of the stage. -/
def Stage.fewAccounts : Host (Fin 26) := honestHost 0 fun x => spell x

theorem Stage.spell_inj {x y : Fin 26} (h : spell x = spell y) : x = y := by
  rw [spell, spell, List.cons.injEq, List.append_cancel_left_eq, List.singleton_inj] at h
  have hlast := UInt8.add_right_inj _ |>.mp h.2
  have hval := congrArg UInt8.toNat hlast
  have hbyte (z : Fin 26) : (z : ℕ) < UInt8.size := z.isLt.trans (by decide)
  rw [UInt8.toNat_ofNat_of_lt' (hbyte x), UInt8.toNat_ofNat_of_lt' (hbyte y)] at hval
  exact Fin.ext hval

/-- What account 2 says of a sealed auction. -/
def Stage.fewParams : CreateAuctionParams (Fin 26) where
  seller := 2
  originalCreator := 2
  format := .sealedBid
  item := .digital ⟨8, .of 1⟩
  paymentToken := 9
  reservePrice := .of 10
  royaltyBps := .of 500
  startTime := 0
  endTime := .of 30
  metadataUri := ""
  minIncrement := 1
  startPrice := .of 500
  priceDecayPerSecond := 1
  commitDeadline := .of 10
  revealDeadline := .of 20
  maxBidders := 0

/-- The tokens at the beginning: nobody has any. -/
def Stage.noTokens : fewAccounts.Tokens := ⟨fun _ _ => 0, fun _ _ _ => 0⟩

/-- Account 3 reveals, at time 11. -/
def Stage.revealer : Tx (Fin 26) := ⟨.of 11, .of 0, fun x => x = 3⟩

/-- The message of account 3 for an amount in auction 0. -/
def Stage.fewMessage (amount : I128) : List UInt8 :=
  buildCommitmentMessage (fewAccounts.env noTokens revealer) amount 0 3

/-- The commitment of account 3 to a hundred in auction 0, under the salt of zeros. -/
def Stage.fewCommitment : BytesN 32 :=
  hmacSha256 (fewAccounts.env noTokens revealer) (BytesN.replicate 32 0) (fewMessage (.of 100))

/-- Account 3 has committed in auction 0, which is active. -/
def Stage.fewCommitted : Storage (Fin 26) where
  auctions := fun id =>
    if id = 0 then some { newAuction fewParams 0 (.of 250) with status := .active } else none
  commitments := fun id x => if id = 0 ∧ x = 3 then some ⟨3, fewCommitment, .of 100, 0⟩ else none
  revealed := fun _ _ => none
  refunds := fun _ _ => none
  auctionCount := none
  config := none
  platformWallet := none

/-- The theorem at this commitment: it can be opened to a hundred, and not to a hundred and
one. -/
theorem binds_fewAccounts :
    Stage.fewAccounts.Opens Stage.fewCommitment (BytesN.replicate 32 0) 0 3 (.of 100) ∧
      ¬Stage.fewAccounts.Opens Stage.fewCommitment (BytesN.replicate 32 0) 0 3 (.of 101) := by
  have hinj : Function.Injective Stage.fewAccounts.addressToString := fun x y h =>
    Stage.spell_inj h
  have hlen : ∀ x, (Stage.fewAccounts.addressToString x).length ≤ 64 := by
    unfold Stage.fewAccounts
    decide
  have hhundred : Stage.fewAccounts.Opens Stage.fewCommitment (BytesN.replicate 32 0) 0 3
      (.of 100) := by
    refine ⟨Stage.noTokens, Stage.revealer, Stage.fewCommitted, _, _, rfl, rfl,
      revealBid_eq_ok_iff.mpr ⟨_, _, rfl, rfl, ⟨⟨?_, rfl, ?_, ?_, rfl⟩, rfl⟩, rfl⟩⟩ <;> decide
  refine ⟨hhundred, fun hmore => ?_⟩
  have hfree : Set.InjOn (hmacSha256 (Stage.fewAccounts.env Stage.noTokens Stage.revealer)
      (BytesN.replicate 32 0)) {Stage.fewMessage (.of 100), Stage.fewMessage (.of 101)} :=
    Set.injOn_pair.mpr fun hsame => absurd hsame (by decide +kernel)
  have hbound := (Host.binds hinj hlen Stage.noTokens Stage.revealer).2 Stage.fewCommitment
    (BytesN.replicate 32 0) _ hfree _ _ _ _ _ _ (Or.inl rfl) (Or.inr rfl) hhundred hmore
  exact absurd hbound.1 (by decide)

end UrithiBidz
