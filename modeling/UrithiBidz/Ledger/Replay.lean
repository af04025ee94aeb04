import UrithiBidz.Ledger.Run

/-!
# Replaying calls

The steps of a run are computed, not only described: `UrithiBidz.replay` executes a list of
calls, each in its own transaction, and answers with the labels and the world reached, or
with nothing if one of the calls panics or cannot be carried out. What it answers is a run
(`UrithiBidz.exists_run_of_replay`), so a concrete run is given by its script and checked by
evaluation.

The second section sets a stage for such scripts: a host with honest tokens, a few accounts
with money, and a platform that has been set up.
-/

namespace UrithiBidz

variable {Address : Type} [DecidableEq Address]

/-- Execute one call. -/
def World.play {H : Host Address} (w : World H) (tx : Tx Address) (c : Call Address) :
    Option (Invocation Address × World H) :=
  if w.now ≤ tx.timestamp ∧ tx.auth H.contract = false ∧ c.Room w.storage then
    match invoke (H.env w.tokens tx) w.storage c with
    | .ok o => (H.execAll tx.auth w.tokens o.calls).map fun t =>
        (⟨H.env w.tokens tx, w.storage, c, o⟩, ⟨o.storage, t, tx.timestamp⟩)
    | .error _ => none
  else none

/-- Execute a list of calls, as long as all of them succeed. -/
def replay {H : Host Address} (w : World H) (script : List (Tx Address × Call Address)) :
    Option (List (Invocation Address) × World H) :=
  History.replay (fun (w : World H) entry => w.play entry.1 entry.2) w script

variable {H : Host Address}

/-- **What executing a call does.** -/
theorem World.eq_of_play {w w' : World H} {tx : Tx Address} {c : Call Address}
    {i : Invocation Address} (h : w.play tx c = some (i, w')) :
    (w.now ≤ tx.timestamp ∧ tx.auth H.contract = false ∧ c.Room w.storage) ∧
      ∃ o t', invoke (H.env w.tokens tx) w.storage c = .ok o ∧
        H.execAll tx.auth w.tokens o.calls = some t' ∧
        i = ⟨H.env w.tokens tx, w.storage, c, o⟩ ∧ w' = ⟨o.storage, t', tx.timestamp⟩ := by
  unfold play at h
  split at h
  · next hcond =>
    split at h
    · next o hret =>
      obtain ⟨t', ht', heq⟩ := Option.map_eq_some_iff.mp h
      cases heq
      exact ⟨hcond, o, t', hret, ht', rfl, rfl⟩
    · cases h
  · cases h

/-- Executing a call is a step, on a host whose tokens may stay as they are. -/
theorem World.step_of_play (hworld : ∀ t, H.world t t) {w w' : World H} {tx : Tx Address}
    {c : Call Address} {i : Invocation Address} (h : w.play tx c = some (i, w')) :
    Step H w i w' := by
  obtain ⟨⟨htime, hself, hroom⟩, o, t', hret, ht', rfl, rfl⟩ := World.eq_of_play h
  exact .call (hworld _) htime hself hroom hret ht'

/-- **Runs by evaluation**: whatever is read off a replay is read off a run. -/
theorem exists_run_of_replay {α : Type} (hworld : ∀ t, H.world t t) {w : World H}
    (hw : w.storage = .empty) {script : List (Tx Address × Call Address)}
    {f : List (Invocation Address) × World H → α} {v : α}
    (h : (replay w script).map f = some v) : ∃ tr w', Run H tr w' ∧ f (tr, w') = v := by
  refine History.exists_of_replay (s := w) (fun t entry i t' hplay => ?_) hw h
  exact World.step_of_play hworld hplay

/-! ### A stage for concrete runs -/

namespace Stage

/-- The text of an account: 56 characters, as that of every account. -/
def spell (account : ℕ) : List UInt8 :=
  0x47 :: (List.replicate 54 0x41 ++ [0x41 + UInt8.ofNat account])

/-- The host: the contract is account 0. -/
def host : Host ℕ := honestHost 0 spell

/-- Everybody but the contract holds a thousand of every token. -/
def start : World host where
  storage := .empty
  tokens := ⟨fun _ holder => if holder = 0 then 0 else 1000, fun _ _ _ => 0⟩
  now := 0

theorem world_refl (t : host.Tokens) : host.world t t := fun _ => le_refl _

/-- A transaction authorized by one account, which is not the contract. -/
def signed (account : ℕ) (time : U64) : Tx ℕ := ⟨time, .of 0, fun a => a = account ∧ a ≠ 0⟩

/-- A token, to be sold. -/
def painting : ItemType ℕ := .digital ⟨8, .of 1⟩

/-- An object in the hands of account 5. -/
def mask : ItemType ℕ := .physical ⟨5, BytesN.replicate 32 0⟩

/-- What account 2 says of an auction in the token 9: it ends at time 30, with the phases of
a sealed one ending at 10 and at 20. -/
def params (format : AuctionFormat) (item : ItemType ℕ) : CreateAuctionParams ℕ where
  seller := 2
  originalCreator := 2
  format := format
  item := item
  paymentToken := 9
  reservePrice := .of 10
  royaltyBps := .of 500
  startTime := 0
  endTime := .of 30
  metadataUri := ""
  minIncrement := 1
  startPrice := .of 500
  priceDecayPerSecond := 1
  commitDeadline := .of 10
  revealDeadline := .of 20
  maxBidders := 0

/-- Account 1 sets the platform up and account 2 creates the auction. -/
def opening (format : AuctionFormat) (item : ItemType ℕ) : List (Tx ℕ × Call ℕ) :=
  [(signed 1 0, .initializeContract 1 (.of 250) (.of 1000) 1),
    (signed 2 0, .createAuction (params format item))]

/-- The commitment of an account to an amount, under the key of zeros. -/
def commitment (amount : I128) (account : ℕ) : BytesN 32 :=
  let env := host.env start.tokens (signed account 0)
  hmacSha256 env (BytesN.replicate 32 0) (buildCommitmentMessage env amount 0 account)

end Stage

end UrithiBidz
