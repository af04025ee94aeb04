import UrithiBidz.Ledger.Replay
import UrithiBidz.Ledger.Transfers

/-!
# Money moves with the consent of its owner

Two things have to be kept apart. A token takes care that nobody is debited who has not
authorized the transaction, and the contract cannot change that. What the contract holds
itself, however, the token lets it move freely, and there nothing but the code of the contract
stands between the money and the wrong hands.

The calls that are made to the tokens are listed in the steps of a book, so the second part is
a matter of looking through them. Three entry points pay out (`UrithiBidz.BookStep.pays`):
the two refunds, which pay what is recorded for the bidder who asks, and the settlement, which
pays the parties of the sale. The first part is looked through as well
(`UrithiBidz.BookStep.signed`): whenever the contract takes tokens from somebody, it has asked
for an authorization itself, the item of a sale apart. `UrithiBidz.Run.consented` is the
theorem about runs.
-/

namespace UrithiBidz

variable {Address : Type} [DecidableEq Address]

/-! ### Losing a balance -/

/-- If nothing is taken from an address, it does not lose. -/
theorem sum_net_nonneg {token me : Address} {calls : List (TokenCall Address)}
    (hno : ∀ dst amount, .transfer token me dst amount ∉ calls)
    (hpos : ∀ call ∈ calls, call.Nonneg token) :
    0 ≤ (calls.map (TokenCall.net token me)).sum := by
  refine List.sum_nonneg fun n hn => ?_
  obtain ⟨call, hcall, rfl⟩ := List.mem_map.mp hn
  rcases call with ⟨tok, src, dst, amount⟩ | _
  · rw [TokenCall.net]
    split
    · next htok =>
      subst htok
      have hsrc : src ≠ me := by
        rintro rfl
        exact hno dst amount hcall
      have hamount := hpos _ hcall rfl
      rw [if_neg hsrc]
      split <;> omega
    · exact le_refl 0
  · exact le_refl 0

/-- **The contract loses nothing unless it pays.** -/
theorem Host.Sep41.exists_payment {H : Host Address} {token : Address} (h : H.Sep41 token)
    {auth : Address → Bool} {t t' : H.Tokens} {calls : List (TokenCall Address)}
    (he : H.execAll auth t calls = some t')
    (hlt : H.balance t' token H.contract < H.balance t token H.contract) :
    ∃ dst amount, .transfer token H.contract dst amount ∈ calls := by
  obtain ⟨hbalance, hpos⟩ := h.balance_execAll he
  by_contra hno
  have hnet := sum_net_nonneg (fun dst amount hmem => hno ⟨dst, amount, hmem⟩) hpos
  omega

/-! ### Who is asked, and who is paid -/

variable {env : Env Address} {id : U64} {c : Call Address} {b b' : Book Address}
  {calls : List (TokenCall Address)} {token src dst : Address} {amount : I128}

/-- **Where the tokens come from that a call moves**: from somebody who has authorized it, out of
the contract by one of three entry points, or, for a digital item, from its seller. -/
theorem BookStep.transfer_cases (h : BookStep env id c b b' calls)
    (hmem : .transfer token src dst amount ∈ calls) :
    env.auth src = true ∨
      (src = env.currentContractAddress ∧ ((∃ x, c = .withdrawRefund id x) ∨
        (∃ x, c = .refundUnrevealed id x) ∨ c = .settleAuction id)) ∨
      ∃ a item, b.auction = some a ∧ a.item = .digital item ∧ c = .settleAuction id ∧
        src = a.seller ∧ token = item.nftContract := by
  -- who locks a bid has authorized the call
  have hlock : ∀ payment bidder price, env.auth bidder = true →
      .transfer token src dst amount ∈ [lockBid env payment bidder price] →
        env.auth src = true := by
    intro payment bidder price hauth hlocked
    obtain ⟨-, rfl, -, -⟩ := TokenCall.transfer.inj (List.mem_singleton.mp hlocked)
    exact hauth
  -- what is refunded comes out of the escrow
  have hrefund : ∀ payment bidder price,
      .transfer token src dst amount ∈ [refundBid env payment bidder price] →
        src = env.currentContractAddress := by
    intro payment bidder price hpaid
    obtain ⟨-, hsrc, -, -⟩ := TokenCall.transfer.inj (List.mem_singleton.mp hpaid)
    exact hsrc
  cases h with
  | create => exact absurd hmem List.not_mem_nil
  | reveal => exact absurd hmem List.not_mem_nil
  | finalize => exact absurd hmem List.not_mem_nil
  | withdraw => exact Or.inr (Or.inl ⟨hrefund _ _ _ hmem, Or.inl ⟨_, rfl⟩⟩)
  | takeBack => exact Or.inr (Or.inl ⟨hrefund _ _ _ hmem, Or.inr (Or.inl ⟨_, rfl⟩)⟩)
  | firstBid _ ok => exact Or.inl (hlock _ _ _ ok.auth hmem)
  | outbid _ ok => exact Or.inl (hlock _ _ _ ok.auth hmem)
  | buy _ ok => exact Or.inl (hlock _ _ _ ok.auth hmem)
  | commit _ ok => exact Or.inl (hlock _ _ _ ok.auth hmem)
  | quiet ha hq =>
    cases hq with
    | settle _ _ hitem =>
      rcases List.mem_append.mp hmem with hmem | hmem
      · rcases transferItem_eq_ok hitem with rfl | ⟨item, hdigital, rfl⟩
        · exact absurd hmem List.not_mem_nil
        · obtain ⟨htoken, hsrc, -, -⟩ := TokenCall.transfer.inj (List.mem_singleton.mp hmem)
          exact Or.inr (Or.inr ⟨_, item, ha, hdigital, rfl, hsrc, htoken⟩)
      · obtain ⟨recipient, paid, hpaid, -, -⟩ := mem_distributeProceeds hmem
        obtain ⟨-, hsrc, -, -⟩ := TokenCall.transfer.inj hpaid
        exact Or.inr (Or.inl ⟨hsrc, Or.inr (Or.inr rfl)⟩)
    | approve _ hcalls =>
      rw [hcalls] at hmem
      cases List.mem_singleton.mp hmem
    | _ => exact absurd hmem List.not_mem_nil

/-- **Three entry points pay out.** -/
theorem BookStep.pays (h : BookStep env id c b b' calls)
    (hself : env.auth env.currentContractAddress = false)
    (hmem : .transfer token env.currentContractAddress dst amount ∈ calls) :
    (∃ x, c = .withdrawRefund id x) ∨ (∃ x, c = .refundUnrevealed id x) ∨
      c = .settleAuction id := by
  rcases h.transfer_cases hmem with hauth | ⟨-, hpays⟩ | ⟨a, item, -, -, hsettle, -⟩
  · exact absurd (hself.symm.trans hauth) Bool.false_ne_true
  · exact hpays
  · exact Or.inr (Or.inr hsettle)

/-- **The contract asks whom it takes tokens from**, the seller of a digital item apart. -/
theorem BookStep.signed (h : BookStep env id c b b' calls)
    (hmem : .transfer token src dst amount ∈ calls) :
    src = env.currentContractAddress ∨ env.auth src = true ∨
      ∃ a item, b.auction = some a ∧ a.item = .digital item ∧ c = .settleAuction id ∧
        src = a.seller ∧ token = item.nftContract := by
  rcases h.transfer_cases hmem with hauth | ⟨hsrc, -⟩ | hitem
  · exact Or.inr (Or.inl hauth)
  · exact Or.inl hsrc
  · exact Or.inr (Or.inr hitem)

/-! ### A call in a run -/

/-- An amount of a token has gone from one address to another, and nothing else has. -/
def Host.Moved (H : Host Address) (token : Address) (t t' : H.Tokens) (src dst : Address)
    (amount : I128) : Prop :=
  ∀ x, H.balance t' token x = H.balance t token x + (if dst = x then amount.val else 0) -
    (if src = x then amount.val else 0)

/-- One transfer of an honest token moves its amount. -/
theorem Host.FullSep41.moved {H : Host Address} (h : H.FullSep41 token)
    {auth : Address → Bool} {t t' : H.Tokens}
    (he : H.execAll auth t [.transfer token src dst amount] = some t') :
    H.Moved token t t' src dst amount := by
  intro x
  have hcalls : ∀ call ∈ [TokenCall.transfer token src dst amount],
      ∃ src dst amount, call = .transfer token src dst amount := by
    intro call hcall
    exact ⟨src, dst, amount, List.mem_singleton.mp hcall⟩
  have hbalance := h.balance_execAll hcalls he x
  rw [hbalance, List.map_singleton, List.sum_singleton, TokenCall.net, if_pos rfl]
  omega

/-- **How the contract comes to hold less of a token** by a call: it pays a bidder who has
authorized the call what is recorded for the bidder, or the parties of a sale. -/
inductive PaysOut {H : Host Address} (s : Storage Address) (token : Address) (tx : Tx Address)
    (t t' : H.Tokens) (o : Outcome Address) : Call Address → Prop
  /-- A refund that was due to the bidder. -/
  | withdrawal {id : U64} {a : Auction Address} {x : Address} (ha : s.auctions id = some a)
      (htoken : a.paymentToken = token) (hauth : tx.auth x = true)
      (hpaid : H.Moved token t t' H.contract x (s.refund id x)) :
      PaysOut s token tx t t' o (.withdrawRefund id x)
  /-- A deposit that the bidder has not revealed. -/
  | takenBack {id : U64} {a : Auction Address} {x : Address} {stored : BidCommitment Address}
      (ha : s.auctions id = some a) (hstored : s.commitments id x = some stored)
      (htoken : a.paymentToken = token) (hauth : tx.auth x = true)
      (hpaid : H.Moved token t t' H.contract x stored.amount) :
      PaysOut s token tx t t' o (.refundUnrevealed id x)
  /-- The price of a sale that has ended; nobody but the three parties is paid. -/
  | settlement {id : U64} {a : Auction Address} {platformWallet : Address}
      (ha : s.auctions id = some a) (hended : a.status = .ended)
      (hwallet : s.platformWallet = some platformWallet) (htoken : a.paymentToken = token)
      (hparties : ∀ tok dst amount, .transfer tok H.contract dst amount ∈ o.calls →
        tok = a.paymentToken ∧
          (dst = a.seller ∨ dst = a.originalCreator ∨ dst = platformWallet)) :
      PaysOut s token tx t t' o (.settleAuction id)

/-- **Money moves with the consent of its owner** in a call: the tokens before and after. -/
structure Consented {H : Host Address} (s : Storage Address) (token : Address) (tx : Tx Address)
    (t t' : H.Tokens) (c : Call Address) (o : Outcome Address) : Prop where
  /-- Nobody but the contract loses anything without having authorized the call. -/
  authorized : ∀ x, x ≠ H.contract → H.balance t' token x < H.balance t token x →
    tx.auth x = true
  /-- The contract itself asks whom it takes tokens from, the seller of a digital item
  apart. -/
  asked : ∀ tok src dst amount, .transfer tok src dst amount ∈ o.calls →
    src = H.contract ∨ tx.auth src = true ∨ ∃ id a item, s.auctions id = some a ∧
      a.item = .digital item ∧ c = .settleAuction id ∧ src = a.seller ∧ tok = item.nftContract
  /-- The contract loses only what it pays out. -/
  paysOut : H.balance t' token H.contract < H.balance t token H.contract →
    PaysOut s token tx t t' o c

variable {H : Host Address} {tr : List (Invocation Address)} {w : World H}

theorem Run.exists_bookStep (h : Run H tr w) {env : Env Address} {o : Outcome Address}
    {call : TokenCall Address} (hret : invoke env w.storage c = .ok o) (hmem : call ∈ o.calls) :
    ∃ id, BookStep env id c (w.storage.book id) (o.storage.book id) o.calls := by
  rcases htarget : c.target w.storage with _ | id
  · rw [(invoke_no_target hret htarget).2] at hmem
    exact absurd hmem List.not_mem_nil
  · exact ⟨id, (invoke_book h.fresh hret htarget).1⟩

/-- A call that pays out pays a bidder or the parties of a sale. -/
theorem Run.paysOut (h : Run H tr w) (htoken : H.FullSep41 token) {tx : Tx Address}
    {t t' : H.Tokens} {o : Outcome Address} (hself : tx.auth H.contract = false)
    (hret : invoke (H.env t tx) w.storage c = .ok o)
    (hcarried : H.execAll tx.auth t o.calls = some t')
    (hmem : .transfer token H.contract dst amount ∈ o.calls) :
    PaysOut w.storage token tx t t' o c := by
  obtain ⟨id, hstep⟩ := h.exists_bookStep hret hmem
  obtain ⟨now, -, hlife⟩ := h.life id
  rcases hstep.pays hself hmem with ⟨x, rfl⟩ | ⟨x, rfl⟩ | rfl
  · obtain ⟨a, ha, ⟨hauth, -⟩, rfl⟩ := withdrawRefund_eq_ok_iff.mp hret
    obtain ⟨rfl, -, -, -⟩ := TokenCall.transfer.inj (List.mem_singleton.mp hmem)
    exact .withdrawal ha rfl hauth (htoken.moved hcarried)
  · obtain ⟨a, stored, ha, hstored, ⟨ok, -⟩, rfl⟩ := refundUnrevealed_eq_ok_iff.mp hret
    obtain ⟨rfl, -, -, -⟩ := TokenCall.transfer.inj (List.mem_singleton.mp hmem)
    exact .takenBack ha hstored rfl ok.auth (htoken.moved hcarried)
  · obtain ⟨a, ha, hended, winner, itemCalls, wallet, split, -, hitem, hwallet, -, rfl⟩ :=
      settleAuction_eq_ok_iff.mp hret
    have hparties : ∀ tok dst amount, .transfer tok H.contract dst amount ∈
        itemCalls ++ distributeProceeds (H.env t tx) a.paymentToken a.seller a.originalCreator
          wallet split →
        tok = a.paymentToken ∧ (dst = a.seller ∨ dst = a.originalCreator ∨ dst = wallet) := by
      intro tok dst amount hcall
      rcases List.mem_append.mp hcall with hcall | hcall
      · -- the item comes from the seller
        rcases transferItem_eq_ok hitem with rfl | ⟨item, -, rfl⟩
        · exact absurd hcall List.not_mem_nil
        · obtain ⟨-, hseller, -, -⟩ := TokenCall.transfer.inj (List.mem_singleton.mp hcall)
          exact absurd hseller.symm (hlife.validTerms a ha).seller
      · obtain ⟨recipient, paid, hpaid, -, hparty⟩ := mem_distributeProceeds hcall
        obtain ⟨htok, -, rfl, -⟩ := TokenCall.transfer.inj hpaid
        exact ⟨htok, hparty⟩
    exact .settlement ha hended hwallet (hparties _ _ _ hmem).1.symm hparties

/-- **Money moves with the consent of its owner, and to whom it is due**, in every call that
goes through in the state that a run has reached. -/
theorem Run.consented (h : Run H tr w) (htoken : H.FullSep41 token) {tx : Tx Address}
    {t t' : H.Tokens} {o : Outcome Address} (hself : tx.auth H.contract = false)
    (hret : invoke (H.env t tx) w.storage c = .ok o)
    (hcarried : H.execAll tx.auth t o.calls = some t') :
    Consented w.storage token tx t t' c o where
  authorized x hx hlt := by
    rcases hauth : tx.auth x with _ | _
    · have hle := htoken.balance_le_of_auth_eq_false hx hauth hcarried
      omega
    · rfl
  asked tok src dst amount hmem := by
    obtain ⟨id, hstep⟩ := h.exists_bookStep hret hmem
    rcases hstep.signed hmem with hsrc | hauth | ⟨a, item, ha, hsale⟩
    · exact Or.inl hsrc
    · exact Or.inr (Or.inl hauth)
    · exact Or.inr (Or.inr ⟨id, a, item, ha, hsale⟩)
  paysOut hlt := by
    obtain ⟨dst, amount, hmem⟩ := htoken.exists_payment hcarried hlt
    exact h.paysOut htoken hself hret hcarried hmem

/-- Account 3 bids a hundred on a token and is outbid. -/
def Stage.outbidding : List (Tx ℕ × Call ℕ) :=
  Stage.opening .english Stage.painting ++
    [(Stage.signed 2 1, .activateAuction 0),
      (Stage.signed 3 (.of 2), .placeBid 0 3 (.of 100)),
      (Stage.signed 4 (.of 3), .placeBid 0 4 (.of 110))]

/-- The theorem at a withdrawal of the hundred, which leaves the escrow. -/
theorem consented_outbidding : ∃ (w : World Stage.host) (t' : Stage.host.Tokens)
    (o : Outcome ℕ), Stage.host.balance w.tokens 9 0 = 210 ∧ Stage.host.balance t' 9 0 = 110 ∧
      Consented w.storage 9 (Stage.signed 3 (.of 4)) w.tokens t' (.withdrawRefund 0 3) o := by
  have hreplay : (replay Stage.start Stage.outbidding).map (fun r =>
      (Stage.host.balance r.2.tokens 9 0,
        (r.2.play (Stage.signed 3 (.of 4)) (.withdrawRefund 0 3)).map fun played =>
          Stage.host.balance played.2.tokens 9 0)) = some (210, some 110) := by decide +kernel
  obtain ⟨tr, w, hrun, hv⟩ := exists_run_of_replay Stage.world_refl rfl hreplay
  obtain ⟨hbefore, hplayed⟩ := Prod.mk.inj hv
  obtain ⟨⟨i, w'⟩, hplay, hafter⟩ := Option.map_eq_some_iff.mp hplayed
  obtain ⟨-, o, t', hret, hcarried, -, rfl⟩ := World.eq_of_play hplay
  exact ⟨w, t', o, hbefore, hafter,
    hrun.consented (fullSep41_honestHost 0 Stage.spell 9) (by decide) hret hcarried⟩

end UrithiBidz
