import UrithiBidz.Ledger.Host

/-!
# Transfers and balances

`UrithiBidz.Host.Sep41` says what an honest token does to the balance of the contract. The
people around it are promised more: the token moves an amount between any two of them
exactly, and it moves nothing of anybody's who has not authorized the transaction.
`UrithiBidz.Host.FullSep41` is that promise, and `UrithiBidz.Host.SenderAuthorizes` the part of
it that speaks of authorization alone.

What the calls of a transaction do to a balance then follows call by call. If all of them are
transfers of the token, every balance changes by what they bring it
(`UrithiBidz.Host.FullSep41.balance_execAll`); whatever they are, nobody loses anything without
having authorized it (`UrithiBidz.Host.FullSep41.balance_le_of_auth_eq_false`).
-/

namespace UrithiBidz

variable {Address : Type} [DecidableEq Address]

namespace Host

variable (H : Host Address)

/-- **A transfer of the token needs the authorization of the sender**, or the sender is the
contract that calls for it. -/
def SenderAuthorizes (token : Address) : Prop :=
  ∀ {auth t t' src dst amount}, H.exec auth t (.transfer token src dst amount) = some t' →
    src = H.contract ∨ auth src = true

/-- **An honest token**, as far as anybody is concerned. -/
structure FullSep41 (token : Address) : Prop extends H.Sep41 token where
  /-- The sender has authorized a transfer. -/
  authorized : H.SenderAuthorizes token
  /-- A transfer moves exactly the amount, whoever is asked. -/
  moves_all : ∀ {auth t t' src dst amount},
    H.exec auth t (.transfer token src dst amount) = some t' → ∀ x,
      H.balance t' token x = H.balance t token x +
        (if dst = x then amount.val else 0) - (if src = x then amount.val else 0)
  /-- A call that is no transfer of the token takes none of it from anybody who has not
  authorized it. -/
  spares : ∀ {auth t t' call}, H.exec auth t call = some t' →
    (∀ src dst amount, call ≠ .transfer token src dst amount) → ∀ x, auth x = false →
      H.balance t token x ≤ H.balance t' token x

variable {H}

omit [DecidableEq Address] in
/-- The calls of a transaction, in two parts. -/
theorem execAll_append {auth : Address → Bool} {t t' : H.Tokens}
    {calls calls' : List (TokenCall Address)} :
    H.execAll auth t (calls ++ calls') = some t' ↔
      ∃ t₁, H.execAll auth t calls = some t₁ ∧ H.execAll auth t₁ calls' = some t' := by
  induction calls generalizing t with
  | nil =>
    refine ⟨fun h => ⟨t, rfl, h⟩, ?_⟩
    rintro ⟨t₁, h₁, h⟩
    rw [List.nil_append, Option.some.inj h₁]
    exact h
  | cons call calls ih =>
    simp only [List.cons_append, execAll, Option.bind_eq_some_iff, ih]
    constructor
    · rintro ⟨t₁, hcall, t₂, hcalls, hcalls'⟩
      exact ⟨t₂, ⟨t₁, hcall, hcalls⟩, hcalls'⟩
    · rintro ⟨t₂, ⟨t₁, hcall, hcalls⟩, hcalls'⟩
      exact ⟨t₁, hcall, t₂, hcalls, hcalls'⟩

namespace FullSep41

variable {token : Address} {auth : Address → Bool} {t t' : H.Tokens}

/-- **What transfers of a token do to a balance.** -/
theorem balance_execAll (h : H.FullSep41 token) {calls : List (TokenCall Address)}
    (hcalls : ∀ call ∈ calls, ∃ src dst amount, call = .transfer token src dst amount)
    (he : H.execAll auth t calls = some t') (x : Address) :
    H.balance t' token x =
      H.balance t token x + (calls.map (TokenCall.net token x)).sum := by
  induction calls generalizing t with
  | nil =>
    rw [← Option.some.inj he]
    simp
  | cons call calls ih =>
    obtain ⟨t₁, hcall, hrest⟩ := Option.bind_eq_some_iff.mp he
    obtain ⟨⟨src, dst, amount, rfl⟩, hothers⟩ := List.forall_mem_cons.mp hcalls
    have hmoved := h.moves_all hcall x
    have hlast := ih hothers hrest
    rw [hlast, hmoved, List.map_cons, List.sum_cons, TokenCall.net, if_pos rfl]
    omega

/-- **Nobody loses anything without having authorized it.** -/
theorem balance_le_of_auth_eq_false (h : H.FullSep41 token) {calls : List (TokenCall Address)}
    {x : Address} (hx : x ≠ H.contract) (hauth : auth x = false)
    (he : H.execAll auth t calls = some t') : H.balance t token x ≤ H.balance t' token x := by
  induction calls generalizing t with
  | nil => rw [← Option.some.inj he]
  | cons call calls ih =>
    obtain ⟨t₁, hcall, hrest⟩ := Option.bind_eq_some_iff.mp he
    refine le_trans ?_ (ih hrest)
    by_cases htransfer : ∃ src dst amount, call = .transfer token src dst amount
    · -- the sender has authorized the transfer, so it is somebody else
      obtain ⟨src, dst, amount, rfl⟩ := htransfer
      have hne : src ≠ x := by
        rintro rfl
        rcases h.authorized hcall with hself | hsigned
        · exact hx hself
        · exact absurd hsigned (by simp [hauth])
      have hpos := (h.funded hcall).1
      rw [h.moves_all hcall x, if_neg hne]
      split <;> omega
    · refine h.spares hcall (fun src dst amount hcon => htransfer ?_) x hauth
      exact ⟨src, dst, amount, hcon⟩

end FullSep41

end Host

/-- **The tokens of the honest host are honest to everybody.** -/
theorem fullSep41_honestHost (contract : Address) (addressToString : Address → List UInt8)
    (token : Address) : (honestHost contract addressToString).FullSep41 token where
  toSep41 := sep41_honestHost contract addressToString token
  authorized := by
    intro auth t t' src dst amount he
    have hcall : Balances.exec contract auth t (.transfer token src dst amount) = some t' := he
    simp only [Balances.exec] at hcall
    split at hcall
    · next hcond => exact hcond.1
    · cases hcall
  moves_all he x := Balances.held_of_transfer he x
  spares he hne x _ := by
    have hsame := Balances.held_of_not_transfer he hne
    exact le_of_eq (congrArg (fun f => (f x : ℤ)) hsame.symm)

end UrithiBidz
