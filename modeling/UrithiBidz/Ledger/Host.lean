import UrithiBidz.Contract.Env
import UrithiBidz.Library.Sha256

/-!
# The chain around the contract

The contract runs on a host, next to token contracts that other people wrote. A
`UrithiBidz.Host` is all of that: the address the contract was deployed at, the hash
function, the spelling of addresses, and the token contracts, whose joint state is
abstract. A token call either succeeds and changes that state or fails, and between two
calls of the contract the state may change by itself, since tokens are moved by people
who never heard of auctions.

Nothing is assumed of a token contract in general. `UrithiBidz.Host.Sep41` is what an
honest one promises: a transfer moves exactly the amount, is refused when the amount is
negative or the sender has less, and nobody but the contract itself moves what the
contract holds. What the other tokens do is then irrelevant, and
`UrithiBidz.Host.Sep41.balance_execAll` bounds the effect of the calls of a transaction
from below by `UrithiBidz.TokenCall.net`.

`UrithiBidz.honestHost` is a host all of whose tokens are honest, over SHA-256.
-/

namespace UrithiBidz

variable {Address : Type} [DecidableEq Address]

/-! ### What a call moves -/

namespace TokenCall

/-- What a call is meant to move from one address to another, in any token. -/
def moved (src dst : Address) : TokenCall Address → ℤ
  | .transfer _ s d amount => if s = src ∧ d = dst then amount.val else 0
  | .approve .. => 0

/-- What a call is meant to bring an address in a token, less what it takes from it. -/
def net (token me : Address) : TokenCall Address → ℤ
  | .transfer t src dst amount =>
    if t = token then
      (if dst = me then amount.val else 0) - (if src = me then amount.val else 0)
    else 0
  | .approve .. => 0

/-- What a call is meant to take from an address in a token. -/
def outflow (token me : Address) : TokenCall Address → ℤ
  | .transfer t src dst amount => if t = token ∧ src = me ∧ dst ≠ me then amount.val else 0
  | .approve .. => 0

/-- A call that an honest token refuses outright moves a negative amount of it. -/
def Nonneg (token : Address) : TokenCall Address → Prop
  | .transfer t _ _ amount => t = token → 0 ≤ amount.val
  | .approve .. => True

end TokenCall

/-! ### Hosts -/

variable (Address) in
/-- What the contract runs on. -/
structure Host where
  /-- The address of the contract. -/
  contract : Address
  /-- The hash function. -/
  sha256 : List UInt8 → BytesN 32
  /-- The text of an address. -/
  addressToString : Address → List UInt8
  /-- The joint state of all token contracts. -/
  Tokens : Type
  /-- What a token contract answers when asked for an allowance: token, owner, spender. -/
  allowance : Tokens → Address → Address → Address → I128
  /-- The balance of a holder: token, holder. -/
  balance : Tokens → Address → Address → ℤ
  /-- A call by the contract, under the authorizations of the transaction. -/
  exec : (Address → Bool) → Tokens → TokenCall Address → Option Tokens
  /-- What may happen to the tokens without the contract. -/
  world : Tokens → Tokens → Prop

namespace Host

variable (H : Host Address)

/-- The calls of a transaction, in order: all of them succeed, or none counts. -/
def execAll (auth : Address → Bool) : H.Tokens → List (TokenCall Address) → Option H.Tokens
  | t, [] => some t
  | t, call :: calls => (H.exec auth t call).bind fun t' => execAll auth t' calls

/-- **An honest token**, as far as the contract is concerned. -/
structure Sep41 (token : Address) : Prop where
  /-- Nobody holds less than nothing. -/
  balance_nonneg : ∀ t, 0 ≤ H.balance t token H.contract
  /-- A transfer is refused unless the amount is there. -/
  funded : ∀ {auth t t' src dst amount},
    H.exec auth t (.transfer token src dst amount) = some t' →
      0 ≤ amount.val ∧ amount.val ≤ H.balance t token src
  /-- A transfer moves exactly the amount. -/
  moves : ∀ {auth t t' src dst amount},
    H.exec auth t (.transfer token src dst amount) = some t' →
      H.balance t' token H.contract = H.balance t token H.contract +
        (if dst = H.contract then amount.val else 0) -
        (if src = H.contract then amount.val else 0)
  /-- A call that is no transfer of the token takes none of it from the contract. -/
  other_calls : ∀ {auth t t' call}, H.exec auth t call = some t' →
    (∀ src dst amount, call ≠ .transfer token src dst amount) →
      H.balance t token H.contract ≤ H.balance t' token H.contract
  /-- Nobody else moves what the contract holds. -/
  outside : ∀ {t t'}, H.world t t' →
    H.balance t token H.contract ≤ H.balance t' token H.contract

namespace Sep41

variable {H} {token : Address}

/-- One call brings the contract at least what it is meant to bring. -/
theorem balance_exec (h : H.Sep41 token) {auth : Address → Bool} {t t' : H.Tokens}
    {call : TokenCall Address} (he : H.exec auth t call = some t') :
    H.balance t token H.contract + call.net token H.contract ≤
        H.balance t' token H.contract ∧ call.Nonneg token := by
  cases call with
  | approve tok owner spender amount expiration =>
    refine ⟨?_, trivial⟩
    rw [TokenCall.net, add_zero]
    exact h.other_calls he fun s d n hcon => by cases hcon
  | transfer tok src dst amount =>
    by_cases ht : tok = token
    · subst ht
      refine ⟨le_of_eq ?_, fun _ => (h.funded he).1⟩
      rw [TokenCall.net, if_pos rfl, h.moves he]
      omega
    · refine ⟨?_, fun hcon => absurd hcon ht⟩
      rw [TokenCall.net, if_neg ht, add_zero]
      refine h.other_calls he fun s d n hcon => ht ?_
      cases hcon
      rfl

/-- **The calls of a transaction bring the contract at least what they are meant to
bring**, and none of them moves a negative amount of an honest token. -/
theorem balance_execAll (h : H.Sep41 token) {auth : Address → Bool} {t t' : H.Tokens}
    {calls : List (TokenCall Address)} (he : H.execAll auth t calls = some t') :
    H.balance t token H.contract + (calls.map (TokenCall.net token H.contract)).sum ≤
        H.balance t' token H.contract ∧ ∀ call ∈ calls, call.Nonneg token := by
  induction calls generalizing t with
  | nil =>
    rw [← Option.some.inj he]
    simp
  | cons call calls ih =>
    obtain ⟨t₁, h₁, h₂⟩ := Option.bind_eq_some_iff.mp he
    obtain ⟨hone, hpos⟩ := h.balance_exec h₁
    obtain ⟨hrest, hall⟩ := ih h₂
    refine ⟨?_, List.forall_mem_cons.mpr ⟨hpos, hall⟩⟩
    rw [List.map_cons, List.sum_cons]
    omega

end Sep41

end Host

/-! ### Transactions -/

variable (Address) in
/-- What a transaction brings with it. -/
structure Tx where
  timestamp : U64
  sequence : U32
  auth : Address → Bool

/-- The environment of a call in a transaction. -/
def Host.env (H : Host Address) (t : H.Tokens) (tx : Tx Address) : Env Address where
  timestamp := tx.timestamp
  sequence := tx.sequence
  currentContractAddress := H.contract
  auth := tx.auth
  allowance := H.allowance t
  sha256 := H.sha256
  addressToString := H.addressToString

/-! ### A host with honest tokens -/

variable (Address) in
/-- What everybody holds of every token, and what they let others move. -/
structure Balances where
  /-- The balance of a holder: token, holder. -/
  held : Address → Address → ℕ
  /-- The allowance: token, owner, spender. -/
  allowed : Address → Address → Address → I128

/-- Move an amount. -/
def Balances.move (t : Balances Address) (token src dst : Address) (amount : ℕ) :
    Balances Address :=
  let taken := Function.update (t.held token) src (t.held token src - amount)
  { t with
    held := Function.update t.held token (Function.update taken dst (taken dst + amount)) }

/-- **What moving an amount does to a balance.** -/
theorem Balances.held_move (t : Balances Address) (token src dst : Address) (amount : ℕ)
    (h : amount ≤ t.held token src) (x : Address) :
    ((t.move token src dst amount).held token x : ℤ) =
      t.held token x + (if dst = x then (amount : ℤ) else 0) -
        (if src = x then (amount : ℤ) else 0) := by
  have hsub : ((t.held token src - amount : ℕ) : ℤ) = t.held token src - amount := by omega
  simp only [move, Function.update_self]
  by_cases hd : dst = x
  · subst hd
    rw [Function.update_self, if_pos rfl]
    by_cases hs : src = dst
    · subst hs
      rw [Function.update_self, if_pos rfl]
      omega
    · rw [Function.update_of_ne (Ne.symm hs), if_neg hs]
      omega
  · rw [Function.update_of_ne (Ne.symm hd), if_neg hd]
    by_cases hs : src = x
    · subst hs
      rw [Function.update_self, if_pos rfl]
      omega
    · rw [Function.update_of_ne (Ne.symm hs), if_neg hs]
      omega

theorem Balances.held_move_of_ne (t : Balances Address) {token other : Address}
    (h : other ≠ token) (src dst : Address) (amount : ℕ) :
    (t.move token src dst amount).held other = t.held other := by
  simp [move, h]

/-- A call of an honest token: whoever is not the contract has to have authorized it. -/
def Balances.exec (contract : Address) (auth : Address → Bool) (t : Balances Address) :
    TokenCall Address → Option (Balances Address)
  | .transfer token src dst amount =>
    if (src = contract ∨ auth src = true) ∧ 0 ≤ amount.val ∧
        amount.val ≤ t.held token src then
      some (t.move token src dst amount.val.toNat)
    else none
  | .approve token owner spender amount _ =>
    if auth owner = true then
      some { t with
        allowed := Function.update t.allowed token (Function.update (t.allowed token) owner
          (Function.update (t.allowed token owner) spender amount)) }
    else none

theorem Balances.exec_transfer {contract token src dst : Address} {auth : Address → Bool}
    {amount : I128} {t t' : Balances Address}
    (h : t.exec contract auth (.transfer token src dst amount) = some t') :
    (0 ≤ amount.val ∧ amount.val ≤ t.held token src) ∧
      t' = t.move token src dst amount.val.toNat := by
  simp only [exec] at h
  split at h
  · next hc => exact ⟨hc.2, (Option.some.inj h).symm⟩
  · cases h

theorem Balances.exec_approve {contract token owner spender : Address} {auth : Address → Bool}
    {amount : I128} {expiration : U32} {t t' : Balances Address}
    (h : t.exec contract auth (.approve token owner spender amount expiration) = some t') :
    t'.held = t.held := by
  simp only [exec] at h
  split at h
  · rw [← Option.some.inj h]
  · cases h

/-- A transfer moves exactly the amount, to or from anybody. -/
theorem Balances.held_of_transfer {contract token src dst : Address} {auth : Address → Bool}
    {amount : I128} {t t' : Balances Address}
    (h : t.exec contract auth (.transfer token src dst amount) = some t') (x : Address) :
    (t'.held token x : ℤ) = t.held token x + (if dst = x then amount.val else 0) -
      (if src = x then amount.val else 0) := by
  obtain ⟨⟨hpos, hle⟩, rfl⟩ := exec_transfer h
  have hamount : (amount.val.toNat : ℤ) = amount.val := Int.toNat_of_nonneg hpos
  have hmove := t.held_move token src dst amount.val.toNat (by omega) x
  rw [hamount] at hmove
  exact hmove

/-- Any other call leaves what is held of the token. -/
theorem Balances.held_of_not_transfer {contract token : Address} {auth : Address → Bool}
    {call : TokenCall Address} {t t' : Balances Address}
    (h : t.exec contract auth call = some t')
    (hne : ∀ src dst amount, call ≠ .transfer token src dst amount) :
    t'.held token = t.held token := by
  cases call with
  | approve tok owner spender amount expiration => rw [exec_approve h]
  | transfer tok src dst amount =>
    obtain ⟨-, rfl⟩ := exec_transfer h
    exact t.held_move_of_ne (fun htok => hne src dst amount (by rw [htok])) src dst _

/-- A host all of whose tokens are honest. Between two calls of the contract, anybody may
send it tokens and nobody may take any. -/
def honestHost (contract : Address) (addressToString : Address → List UInt8) :
    Host Address where
  contract := contract
  sha256 := Sha256.hash
  addressToString := addressToString
  Tokens := Balances Address
  allowance := Balances.allowed
  balance := fun t token holder => t.held token holder
  exec := Balances.exec contract
  world := fun t t' => ∀ token, t.held token contract ≤ t'.held token contract

/-- **Its tokens are honest.** -/
theorem sep41_honestHost (contract : Address) (addressToString : Address → List UInt8)
    (token : Address) : (honestHost contract addressToString).Sep41 token where
  balance_nonneg _ := Int.natCast_nonneg _
  funded he := (Balances.exec_transfer he).1
  moves he := Balances.held_of_transfer he contract
  other_calls he hne := by
    have hsame := Balances.held_of_not_transfer he hne
    exact le_of_eq (congrArg (fun f => (f contract : ℤ)) hsame.symm)
  outside h := Int.ofNat_le.mpr (h token)

end UrithiBidz
