import UrithiBidz.Book.Owed
import UrithiBidz.Ledger.Replay
import UrithiBidz.Library.Backing

/-!
# The escrow is solvent

All auctions share one balance of every payment token, so what is owed in one of them could
be paid with the deposits of another. The escrow is *solvent* in a token when its balance
covers everything that is owed in it, over all auctions together, and when no call, whatever
it pays, takes anything of what is owed in another auction than its own.

A transfer that an honest token carries out moves exactly the amount, so the balance is a
common fund and the auctions are the accounts in it. What a step does to its own account is
`UrithiBidz.BookStep.secured_le`, and the bookkeeping is that of `Backed`: the amounts that
are secured stay backed (`UrithiBidz.Run.backed`), and what is owed is no more than that.

Two calls are not matched by money. A bid may be revealed at more than its deposit, which is
what `UrithiBidz.exists_insolvent` does, and an attestation reopens an auction that was paid
out. `UrithiBidz.Invocation.KeepsBacking` excludes the two.
-/

namespace UrithiBidz

variable {Address : Type} [DecidableEq Address] {H : Host Address}

/-- What is secured in a token, over all auctions. -/
def World.secured (w : World H) (token : Address) (id : U64) (x : Address) : ℤ :=
  (w.storage.book id).secured token x

/-- What is owed in a token, over all auctions. -/
def World.owed (w : World H) (token : Address) (id : U64) (x : Address) : ℤ :=
  (w.storage.book id).owed token x

/-- **The escrow is solvent in a token**: the balance covers all that is owed, and whatever
the next call takes from the contract, what is owed in the other auctions is still there. -/
def EscrowSolvent (token : Address) (w : World H) : Prop :=
  Backed (w.owed token) (H.balance w.tokens token H.contract) ∧
    ∀ t, H.world w.tokens t → ∀ tx, tx.auth H.contract = false → ∀ c o,
      invoke (H.env t tx) w.storage c = .ok o → ∀ id, c.target w.storage = some id →
        ∀ (others : Finset U64) (holders : Finset Address), id ∉ others →
          (o.calls.map (TokenCall.outflow token H.contract)).sum +
            ∑ other ∈ others, ∑ x ∈ holders, w.owed token other x ≤
              H.balance t token H.contract

/-- **A step keeps the amounts that are secured backed.** -/
theorem Step.backed {tr : List (Invocation Address)} {w w' : World H} {i : Invocation Address}
    {token : Address} (h : Step H w i w') (hrun : Run H tr w) (htoken : H.Sep41 token)
    (hk : i.KeepsBacking)
    (hb : Backed (w.secured token) (H.balance w.tokens token H.contract)) :
    Backed (w'.secured token) (H.balance w'.tokens token H.contract) := by
  cases h with
  | @call s t₀ t t' now tx c o houtside htime hself hroom hret hcarried =>
    obtain ⟨hbalance, hpos⟩ := htoken.balance_execAll hcarried
    have hgrown := htoken.outside houtside
    cases htarget : c.target s with
    | none =>
      -- nothing is paid and no book is touched
      obtain ⟨hframe, hcalls⟩ := invoke_no_target hret htarget
      rw [hcalls] at hbalance
      refine hb.mono (fun id x => le_of_eq ?_) (hgrown.trans ?_)
      · exact congrArg (fun b => Book.secured token b x) (hframe id)
      · simpa using hbalance
    | some id =>
      obtain ⟨hstep, hframe⟩ := invoke_book hrun.fresh hret htarget
      obtain ⟨now', -, hlife⟩ := hrun.life id
      obtain ⟨x₀, hcell⟩ := hstep.secured_le token hlife.blankPages hlife.validTerms rfl hself
        hpos rfl rfl hk
      have hnonneg : ∀ id x, 0 ≤ (⟨o.storage, t', tx.timestamp⟩ : World H).secured token id x :=
        fun id x => Book.secured_nonneg token _ x
      have hrow : ∀ other, other ≠ id → (⟨o.storage, t', tx.timestamp⟩ : World H).secured token
          other = (⟨s, t₀, now⟩ : World H).secured token other := fun other hother => by
        funext x
        exact congrArg (fun b => Book.secured token b x) (hframe other hother)
      have hstepped := hb.step hnonneg hrow hcell
      exact hstepped.mono (fun _ _ => le_refl _) ((add_le_add_left hgrown _).trans hbalance)

variable {tr : List (Invocation Address)} {w : World H} {token : Address}

/-- **What is secured is backed**, in every run whose calls keep the claims backed. -/
theorem Run.backed (h : Run H tr w) (htoken : H.Sep41 token) (hk : ∀ i ∈ tr, i.KeepsBacking) :
    Backed (w.secured token) (H.balance w.tokens token H.contract) := by
  induction h with
  | @start w hw =>
    refine .of_eq_zero (fun id x => ?_) (htoken.balance_nonneg w.tokens)
    rw [World.secured, hw]
    rfl
  | @snoc tr w w' i hrun hs ih =>
    have hpast := ih fun i hi => hk i (List.mem_append_left _ hi)
    exact hs.backed hrun htoken (hk i (by simp)) hpast

/-- **The escrow is solvent**, in every run on a host where the token is honest and all of
whose calls keep the claims backed. -/
theorem Run.escrowSolvent (h : Run H tr w) (htoken : H.Sep41 token)
    (hk : ∀ i ∈ tr, i.KeepsBacking) : EscrowSolvent token w := by
  have hbacked := h.backed htoken hk
  have howed : ∀ id x, w.owed token id x ≤ w.secured token id x :=
    fun id x => Book.owed_le_secured token _ x
  refine ⟨hbacked.mono howed (le_refl _), ?_⟩
  intro t hworld tx hself c o hret id htarget others holders hid
  obtain ⟨hstep, -⟩ := invoke_book h.fresh hret htarget
  obtain ⟨now', -, hlife⟩ := h.life id
  obtain ⟨x₀, hpaid⟩ := hstep.outflow_le token hlife.validTerms hself
  have hcell := hbacked.cell_add_le (fun id x => Book.secured_nonneg token _ x) x₀ hid holders
  have hrest : ∑ other ∈ others, ∑ x ∈ holders, w.owed token other x ≤
      ∑ other ∈ others, ∑ x ∈ holders, w.secured token other x :=
    Finset.sum_le_sum fun other _ => Finset.sum_le_sum fun x _ => howed other x
  calc (o.calls.map (TokenCall.outflow token H.contract)).sum +
        ∑ other ∈ others, ∑ x ∈ holders, w.owed token other x
      ≤ w.secured token id x₀ + ∑ other ∈ others, ∑ x ∈ holders, w.secured token other x :=
        add_le_add hpaid hrest
    _ ≤ H.balance w.tokens token H.contract := hcell
    _ ≤ H.balance t token H.contract := htoken.outside hworld

/-- Account 3 deposits one amount and reveals another. -/
def Stage.revealing (deposit revealed : I128) : List (Tx ℕ × Call ℕ) :=
  Stage.opening .sealedBid Stage.painting ++
    [(Stage.signed 2 1, .activateAuction 0),
      (Stage.signed 3 (.of 2), .commitBid 0 3 (Stage.commitment revealed 3) deposit),
      (Stage.signed 3 (.of 11), .revealBid 0 3 revealed (BytesN.replicate 32 0))]

/-- The theorem at a bid that is revealed as deposited. -/
theorem escrowSolvent_revealing : ∃ (tr : List (Invocation ℕ)) (w : World Stage.host),
    Run Stage.host tr w ∧ w.owed 9 0 3 = 100 ∧ Stage.host.balance w.tokens 9 0 = 100 ∧
      EscrowSolvent 9 w := by
  have hreplay : (replay Stage.start (Stage.revealing (.of 100) (.of 100))).map (fun r =>
      (r.2.owed 9 0 3, Stage.host.balance r.2.tokens 9 0,
        decide (∀ i ∈ r.1, i.KeepsBacking))) = some (100, 100, true) := by decide +kernel
  obtain ⟨tr, w, hrun, hv⟩ := exists_run_of_replay Stage.world_refl rfl hreplay
  simp only [Prod.mk.injEq] at hv
  obtain ⟨howed, hbalance, hk⟩ := hv
  exact ⟨tr, w, hrun, howed, hbalance,
    hrun.escrowSolvent (sep41_honestHost 0 Stage.spell 9) (of_decide_eq_true hk)⟩

/-- **The escrow need not be solvent**: whoever deposits a hundred and reveals five hundred is
owed four hundred that nobody has paid in. -/
theorem exists_insolvent : ¬∀ (tr : List (Invocation ℕ)) (w : World Stage.host),
    Run Stage.host tr w → EscrowSolvent 9 w := by
  intro hclaim
  have hreplay : (replay Stage.start (Stage.revealing (.of 100) (.of 500))).map (fun r =>
      (r.2.owed 9 0 3, Stage.host.balance r.2.tokens 9 0)) = some (500, 100) := by decide +kernel
  obtain ⟨tr, w, hrun, hv⟩ := exists_run_of_replay Stage.world_refl rfl hreplay
  obtain ⟨howed, hbalance⟩ := Prod.mk.inj hv
  have hbacked := (hclaim tr w hrun).1 {0} {3}
  rw [Finset.sum_singleton, Finset.sum_singleton, howed] at hbacked
  have hcovered : (500 : ℤ) ≤ 100 := hbacked.trans (le_of_eq hbalance)
  exact absurd hcovered (by decide)

end UrithiBidz
