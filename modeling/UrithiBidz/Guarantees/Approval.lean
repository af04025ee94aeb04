import UrithiBidz.Guarantees.Isolation
import UrithiBidz.Ledger.Transfers

/-!
# The approval of a digital item

The seller of a digital item can approve the contract, ahead of the sale, to move the item. An
approval is for a spender: with it, the contract could move the item in its own name, by the
call `transfer_from` of the token. Settlement asks the token for the allowance and then does
something else: it calls `transfer` with the seller as the sender, and a token takes that for
a transfer by the seller, who has to sign it.

So the approval is of no use. `UrithiBidz.auth_of_goesThrough` is the reason: whoever settles
the sale of a digital item brings along the authorization of the seller. The amount does not
fit either, since one unit is approved and as many are moved as the id of the token says.
`UrithiBidz.Run.approvalUseless` states both for every run, and `UrithiBidz.exists_unsettled`
is a sale that cannot be settled although nothing is missing but a second signature of the
seller.
-/

namespace UrithiBidz

variable {Address : Type}

/-- **A call goes through**: it returns, and the host carries out its token calls. -/
def Host.GoesThrough [DecidableEq Address] (H : Host Address) (t : H.Tokens) (tx : Tx Address)
    (s : Storage Address) (c : Call Address) : Prop :=
  ∃ o t', invoke (H.env t tx) s c = .ok o ∧ H.execAll tx.auth t o.calls = some t'

/-! ### The settlement -/

theorem transferItem_digital_eq_ok_iff {env : Env Address} {a : Auction Address}
    {item : DigitalItem Address} (hitem : a.item = .digital item) {winner : Address}
    {calls : List (TokenCall Address)} :
    transferItem env a winner = .ok calls ↔
      env.allowance item.nftContract a.seller env.currentContractAddress ≥ Ranged.of 1 ∧
        calls = [.transfer item.nftContract a.seller winner (I128.ofU64 item.tokenId)] := by
  simp only [transferItem, hitem, ensure_bind_eq_ok_iff, Except.pure_eq_ok_iff]
  exact and_congr_right fun _ => eq_comm

variable [DecidableEq Address] {H : Host Address} {tr : List (Invocation Address)} {w : World H}
  {id : U64} {a : Auction Address} {item : DigitalItem Address}

/-- **Settling the sale of a digital item takes the authorization of the seller**, whatever
has been approved, unless the contract is the seller. -/
theorem auth_of_goesThrough {s : Storage Address} (ha : s.auctions id = some a)
    (hitem : a.item = .digital item) (htoken : H.SenderAuthorizes item.nftContract)
    {t : H.Tokens} {tx : Tx Address} (hgo : H.GoesThrough t tx s (.settleAuction id)) :
    a.seller = H.contract ∨ tx.auth a.seller = true := by
  obtain ⟨o, t', hret, hcarried⟩ := hgo
  obtain ⟨a', ha', -, winner, itemCalls, wallet, split, -, hmoved, -, -, rfl⟩ :=
    settleAuction_eq_ok_iff.mp hret
  obtain rfl := Option.some.inj (ha.symm.trans ha')
  obtain ⟨-, rfl⟩ := (transferItem_digital_eq_ok_iff hitem).mp hmoved
  -- the item comes first, so its transfer has been carried out
  obtain ⟨t₁, hfirst, -⟩ := Option.bind_eq_some_iff.mp hcarried
  exact htoken hfirst

/-- The settlement of a digital item is not carried out without the seller. -/
theorem Run.not_goesThrough (h : Run H tr w) (ha : w.storage.auctions id = some a)
    (hitem : a.item = .digital item) (htoken : H.SenderAuthorizes item.nftContract)
    {t : H.Tokens} {tx : Tx Address} (hunsigned : tx.auth a.seller = false) :
    ¬H.GoesThrough t tx w.storage (.settleAuction id) := by
  intro hgo
  obtain ⟨now, -, hlife⟩ := h.life id
  rcases auth_of_goesThrough ha hitem htoken hgo with hself | hsigned
  · exact (hlife.validTerms a ha).seller hself
  · exact Bool.false_ne_true (hunsigned.symm.trans hsigned)

/-! ### The approval -/

/-- What the seller approves is one unit of the item's token. -/
theorem Run.approves (h : Run H tr w) {i : Invocation Address} (hi : i ∈ tr)
    (hcall : i.call = .approveNftTransfer id) (ha : w.storage.auctions id = some a)
    (hitem : a.item = .digital item) : ∃ expiration, i.outcome.calls =
      [.approve item.nftContract a.seller H.contract (.of 1) expiration] := by
  obtain ⟨past, t, t', hpast, hs, -⟩ := h.of_mem hi
  obtain ⟨-, -, hret, -, -⟩ := hs.returns
  have hdeployed : i.env.currentContractAddress = H.contract := by
    cases hs
    rfl
  rw [hcall] at hret
  obtain ⟨a₀, item₀, ha₀, ⟨-, hitem₀, -⟩, ho⟩ := approveNftTransfer_eq_ok_iff.mp hret
  -- the seller and the item are still the same
  have hafter : i.outcome.storage.auctions id = some a₀ := by rw [ho]; exact ha₀
  obtain ⟨a', ha', hkeeps⟩ := h.record_since .refl (fun hstep => hstep.keepsTerms)
    (fun _ _ _ h₁ h₂ => h₁.trans h₂) i hi a₀ hafter
  obtain rfl := Option.some.inj (ha.symm.trans ha')
  have hsame := hkeeps.item
  rw [hitem₀, hitem] at hsame
  cases hsame
  exact ⟨i.env.sequence.saturatingAdd (.of 34560), by
    rw [ho, approveOutcome, hkeeps.seller, hdeployed]⟩

/-- **The approval of a digital item is of no use.** -/
structure ApprovalUseless {H : Host Address} (id : U64) (a : Auction Address)
    (item : DigitalItem Address) (tr : List (Invocation Address)) (w : World H) : Prop where
  /-- No settlement goes through in a transaction that the seller has not authorized, whatever
  the tokens are by then. -/
  unsigned : ∀ t tx, tx.auth a.seller = false →
    ¬H.GoesThrough t tx w.storage (.settleAuction id)
  /-- The amount that is approved covers the amount that a settlement moves only for the first
  two ids. -/
  uncovered : ∀ i ∈ tr, i.call = .approveNftTransfer id → ∃ amount expiration,
    i.outcome.calls = [.approve item.nftContract a.seller H.contract amount expiration] ∧
      ∀ env winner itemCalls, transferItem env a winner = .ok itemCalls →
        ∃ moved, itemCalls = [.transfer item.nftContract a.seller winner moved] ∧
          (moved ≤ amount ↔ item.tokenId.val ≤ 1)

/-- **The approval of a digital item is of no use**, in any run. -/
theorem Run.approvalUseless (h : Run H tr w) (ha : w.storage.auctions id = some a)
    (hitem : a.item = .digital item) (htoken : H.SenderAuthorizes item.nftContract) :
    ApprovalUseless id a item tr w where
  unsigned t tx hunsigned := h.not_goesThrough ha hitem htoken hunsigned
  uncovered i hi hcall := by
    obtain ⟨expiration, hcalls⟩ := h.approves hi hcall ha hitem
    refine ⟨.of 1, expiration, hcalls, fun env winner itemCalls hmoved => ?_⟩
    obtain ⟨-, rfl⟩ := (transferItem_digital_eq_ok_iff hitem).mp hmoved
    exact ⟨I128.ofU64 item.tokenId, rfl, Iff.rfl⟩

/-- A token is approved, sold to account 3 for a hundred, and the auction closed. -/
def Stage.approvedSale : List (Tx ℕ × Call ℕ) :=
  Stage.opening .english Stage.painting ++
    [(Stage.signed 2 1, .activateAuction 0),
      (Stage.signed 2 1, .approveNftTransfer 0),
      (Stage.signed 3 (.of 2), .placeBid 0 3 (.of 100)),
      (Stage.signed 4 (.of 400), .closeAuction 0)]

theorem Stage.senderAuthorizes (token : ℕ) : Stage.host.SenderAuthorizes token :=
  (fullSep41_honestHost 0 Stage.spell token).authorized

/-- The theorem at this sale: account 4 cannot settle it. -/
theorem approvalUseless_approvedSale : ∃ (tr : List (Invocation ℕ)) (w : World Stage.host)
    (a : Auction ℕ), (∃ i ∈ tr, i.call = .approveNftTransfer 0) ∧ a.status = .ended ∧
      ApprovalUseless 0 a ⟨8, .of 1⟩ tr w ∧
        ¬Stage.host.GoesThrough w.tokens (Stage.signed 4 (.of 401)) w.storage
          (.settleAuction 0) := by
  have hreplay : (replay Stage.start Stage.approvedSale).map (fun r =>
      ((r.2.storage.auctions 0).map fun a => (a.status, a.item, a.seller),
        r.1.any fun i => i.call = .approveNftTransfer 0)) =
        some (some (.ended, Stage.painting, 2), true) := by decide +kernel
  obtain ⟨tr, w, hrun, hv⟩ := exists_run_of_replay Stage.world_refl rfl hreplay
  obtain ⟨ha, hany⟩ := Prod.mk.inj hv
  obtain ⟨a, ha, hfields⟩ := Option.map_eq_some_iff.mp ha
  simp only [Prod.mk.injEq] at hfields
  obtain ⟨hended, hitem, hseller⟩ := hfields
  obtain ⟨i, hi, happroves⟩ := List.any_eq_true.mp hany
  have huseless := hrun.approvalUseless ha hitem (Stage.senderAuthorizes 8)
  exact ⟨tr, w, a, ⟨i, hi, of_decide_eq_true happroves⟩, hended, huseless,
    huseless.unsigned w.tokens _ (by rw [hseller]; decide)⟩

/-- **A sale that has been approved cannot be settled**: the allowance is there, the seller
holds the item, and the settlement still fails without the seller. -/
theorem exists_unsettled : ¬∀ (tr : List (Invocation ℕ)) (w : World Stage.host),
    Run Stage.host tr w → ∀ id a item tx, w.storage.auctions id = some a → a.status = .ended →
      a.item = .digital item →
      (∃ i ∈ tr, i.call = .approveNftTransfer id ∧ ∃ amount expiration, i.outcome.calls =
        [.approve item.nftContract a.seller Stage.host.contract amount expiration] ∧
          tx.sequence ≤ expiration ∧ amount ≤ Stage.host.allowance w.tokens item.nftContract
            a.seller Stage.host.contract) →
      item.tokenId.val ≤ Stage.host.balance w.tokens item.nftContract a.seller →
      w.now ≤ tx.timestamp → tx.auth Stage.host.contract = false → tx.auth a.seller = false →
        Stage.host.GoesThrough w.tokens tx w.storage (.settleAuction id) := by
  intro hclaim
  have hreplay : (replay Stage.start Stage.approvedSale).map (fun r =>
      ((r.2.storage.auctions 0).map fun a => (a.status, a.item, a.seller),
        r.1.any (fun i => i.call = .approveNftTransfer 0), r.2.now,
        decide (Ranged.of 1 ≤ Stage.host.allowance r.2.tokens 8 2 0),
        decide (1 ≤ Stage.host.balance r.2.tokens 8 2))) =
        some (some (.ended, Stage.painting, 2), true, .of 400, true, true) := by decide +kernel
  obtain ⟨tr, w, hrun, hv⟩ := exists_run_of_replay Stage.world_refl rfl hreplay
  simp only [Prod.mk.injEq, decide_eq_true_eq] at hv
  obtain ⟨ha, hany, hnow, hallowed, hheld⟩ := hv
  obtain ⟨a, ha, hfields⟩ := Option.map_eq_some_iff.mp ha
  simp only [Prod.mk.injEq] at hfields
  obtain ⟨hended, hitem, hseller⟩ := hfields
  obtain ⟨i, hi, happroves⟩ := List.any_eq_true.mp hany
  have happroves : i.call = .approveNftTransfer 0 := of_decide_eq_true happroves
  obtain ⟨expiration, hcalls⟩ := hrun.approves hi happroves ha hitem
  have hunsigned : (Stage.signed 4 (.of 401)).auth a.seller = false := by rw [hseller]; decide
  -- the contract has its approval and the seller the item, and yet the seller has to sign
  refine hrun.not_goesThrough ha hitem (Stage.senderAuthorizes 8) hunsigned
    (hclaim tr w hrun 0 a _ _ ha hended hitem ⟨i, hi, happroves, _, _, hcalls, ?_, ?_⟩ ?_ ?_
      (by decide) hunsigned)
  · exact expiration.lo_le
  · rw [hseller]
    exact hallowed
  · rw [hseller]
    exact hheld
  · rw [hnow]
    decide

end UrithiBidz
