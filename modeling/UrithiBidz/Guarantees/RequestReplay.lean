import UrithiBidz.Server.Auth

/-!
# Replayed requests

A signed request must not pass a second time, since whoever has seen it could send it again. The
middleware remembers the pairs of address and nonce that have passed and refuses them, for five
minutes; by then the nonce is too old to pass anyway.

That is so if the nonce was not younger than its use. A clock that is half a minute fast is
tolerated, so a nonce may carry a time that is still to come. Its pair is thrown out five minutes
after its use, when the nonce itself is younger than that and as good as before
(`UrithiBidz.AuthTick.EvictsFresh`). As long as the timer does not do this to a pair, it passes at
most once (`UrithiBidz.AuthRun.passes_once`), and when it does, the same request passes again at
once (`UrithiBidz.AuthRun.exists_replay`).
-/

namespace UrithiBidz

variable {verify : Native → String → String → Bool} {tr past : List AuthTick} {s : AuthServer}
  {i j : AuthTick} {address nonce : String}

/-- **The timer throws a pair out whose nonce is not too old.** -/
def AuthTick.EvictsFresh (i : AuthTick) (address nonce : String) : Prop :=
  ∃ timestamp nonceMs, i.event = .cleanup ∧
    i.before (replayKey address nonce) = some timestamp ∧
      authNonceMaxAgeMs < i.now - timestamp ∧
        nonceTimestamp nonce = some nonceMs ∧ i.now - nonceMs ≤ authNonceMaxAgeMs

/-- This happens to nonces from the future only. -/
theorem AuthTick.EvictsFresh.ahead (h : i.EvictsFresh address nonce) : ∃ timestamp nonceMs,
    i.before (replayKey address nonce) = some timestamp ∧
      nonceTimestamp nonce = some nonceMs ∧ timestamp < nonceMs := by
  obtain ⟨timestamp, nonceMs, -, hseen, hold, htime, hfresh⟩ := h
  exact ⟨timestamp, nonceMs, hseen, htime, by omega⟩

/-! ### At most once -/

/-- A pair is spent when it is in the cache, or its nonce is too old. -/
def AuthServer.Spent (s : AuthServer) (address nonce : String) : Prop :=
  (s.seenNonces (replayKey address nonce)).isSome ∨
    ∀ nonceMs, nonceTimestamp nonce = some nonceMs → authNonceMaxAgeMs < s.clock - nonceMs

theorem AuthServer.Spent.not_passes (h : s.Spent address nonce)
    (hbefore : i.before = s.seenNonces) (hclock : s.clock ≤ i.now) :
    ¬i.Passes verify address nonce := by
  intro hpass
  obtain ⟨hunseen, -, nonceMs, htime, hfresh⟩ := hpass.seen
  rcases h with hseen | hold
  · rw [← hbefore, hunseen] at hseen
    exact absurd hseen Bool.false_ne_true
  · have hlate := hold nonceMs htime
    exact hfresh (Or.inl (by omega))

/-- A pair that is spent stays so, unless the timer throws it out too early. -/
theorem AuthServer.Spent.step (h : s.Spent address nonce) (hbefore : i.before = s.seenNonces)
    (hclock : s.clock ≤ i.now) (hkeep : ¬i.EvictsFresh address nonce) :
    AuthServer.Spent ⟨i.now, i.after verify⟩ address nonce := by
  rcases h with hseen | hold
  · rw [← hbefore] at hseen
    obtain ⟨timestamp, hseen⟩ := Option.isSome_iff_exists.mp hseen
    rcases AuthTick.after_of_seen hseen with hstill | ⟨hcleanup, hevicted⟩
    · exact Or.inl hstill
    · -- thrown out, the nonce is too old
      refine Or.inr fun nonceMs htime => ?_
      by_contra! hfresh
      exact hkeep ⟨timestamp, nonceMs, hcleanup, hseen, hevicted, htime, hfresh⟩
  · refine Or.inr fun nonceMs htime => ?_
    have hlate := hold nonceMs htime
    dsimp only
    omega

/-- **A pair passes at most once**, in every run whose timer does not throw it out while its nonce
is good. -/
theorem AuthRun.passes_once (h : AuthRun verify tr s)
    (hkeep : ∀ i ∈ tr, ¬i.EvictsFresh address nonce) :
    tr.Pairwise fun i j => i.Passes verify address nonce → ¬j.Passes verify address nonce := by
  refine History.once (fun _ s => s.Spent address nonce) h ?_ ?_
  · rintro past t i t' - ⟨hbefore, hclock, rfl⟩ - hpass
    refine ⟨fun hspent => hspent.not_passes hbefore hclock hpass, Or.inl ?_⟩
    change ((i.after verify) (replayKey address nonce)).isSome
    rw [hpass.seen.2.1]
    rfl
  · rintro past t i t' - ⟨hbefore, hclock, rfl⟩ hpre hspent
    exact hspent.step hbefore hclock (hkeep i (hpre.subset (by simp)))

/-! ### And again -/

theorem AuthRun.now_le (h : AuthRun verify tr s) : ∀ i ∈ tr, i.now ≤ s.clock := by
  induction h with
  | start => exact fun i hi => absurd hi List.not_mem_nil
  | @snoc tr s s' j h hs ih =>
    obtain ⟨-, hclock, rfl⟩ := hs
    intro i hi
    rcases List.mem_append.mp hi with hi | hi
    · exact (ih i hi).trans hclock
    · rw [List.mem_singleton.mp hi]

/-- **A pair that is thrown out too early passes again**: the request that has passed, sent once
more. -/
theorem AuthRun.exists_replay (h : AuthRun verify (past ++ [i]) s) (hj : j ∈ past)
    (hpass : j.Passes verify address nonce) (hevict : i.EvictsFresh address nonce) :
    ∃ k s', AuthRun verify (past ++ [i] ++ [k]) s' ∧ k.event = j.event ∧
      k.Passes verify address nonce := by
  obtain ⟨t, hpast, hbefore, hclock, rfl⟩ := h.of_snoc
  have htime := AuthRun.now_le hpast j hj
  obtain ⟨timestamp, nonceMs, hcleanup, hseen, hold, hms, hfresh⟩ := hevict
  obtain ⟨addressField, request, seen', hevent, hok, haddress, rfl⟩ := hpass
  obtain ⟨address', hmeets, -⟩ := stellarAuthMiddleware_eq_ok_iff.mp hok
  obtain rfl := Option.some.inj (haddress.symm.trans hmeets.spelled)
  obtain ⟨nonceMs', hms', hgood⟩ := hmeets.fresh
  obtain rfl := Option.some.inj (hms.symm.trans hms')
  have hgone : i.after verify (replayKey address request.nonce) = none := by
    have hevicted : ¬decide (¬authNonceMaxAgeMs < i.now - timestamp) = true :=
      fun hkept => of_decide_eq_true hkept hold
    simp only [AuthTick.after, hcleanup]
    rw [cleanupNonces, hseen, Option.filter_some, if_neg hevicted]
  have hagain : AcceptsRequest verify addressField i.now request (i.after verify) address := by
    refine { hmeets with fresh := ⟨nonceMs, hms, fun hexpired => ?_⟩, unseen := hgone }
    rcases hexpired with hlate | hearly
    · omega
    · exact hgood (Or.inr (by omega))
  have hok' := stellarAuthMiddleware_eq_ok_iff.mpr ⟨address, hagain, rfl⟩
  let k : AuthTick := ⟨i.after verify, i.now, j.event⟩
  have hstep : AuthRun verify (past ++ [i] ++ [k]) ⟨i.now, k.after verify⟩ :=
    h.snoc ⟨rfl, le_refl _, rfl⟩
  exact ⟨k, _, hstep, rfl, addressField, request, _, hevent, hok', haddress, rfl⟩

namespace Stage

/-- Signatures of the account GA, in a hand that is easily read. -/
def readable (address : Native) (message signature : String) : Bool :=
  address.text = "GA" && signature = "GA signs " ++ message

/-- A bid of this account, signed over a nonce. -/
def signedBid (nonce : String) : AuthRequest where
  body := .object [("bidder", .string "GA")]
  signature := some ("GA signs stellar-urithi-bidz-auth:" ++ nonce)
  message := some ("stellar-urithi-bidz-auth:" ++ nonce)

/-- The first request of a server. -/
def firstUse (now : ℤ) (nonce : String) : AuthTick :=
  ⟨fun _ => none, now, .request "bidder" (signedBid nonce)⟩

/-- A round of the timer behind it. -/
def firstRound (now later : ℤ) (nonce : String) : AuthTick :=
  ⟨(firstUse now nonce).after readable, later, .cleanup⟩

theorem authRun_firstRound (now later : ℤ) (nonce : String) (h : now ≤ later) :
    AuthRun readable ([firstUse now nonce] ++ [firstRound now later nonce])
      ⟨later, (firstRound now later nonce).after readable⟩ := by
  have hstart : AuthRun readable ([] ++ [firstUse now nonce])
      ⟨now, (firstUse now nonce).after readable⟩ :=
    History.snoc (s := (⟨now, fun _ => none⟩ : AuthServer)) (.start rfl) ⟨rfl, le_refl _, rfl⟩
  exact hstart.snoc ⟨rfl, h, rfl⟩

theorem passes_firstUse (now : ℤ) (nonce : String)
    (h : (stellarAuthMiddleware readable "bidder" now (signedBid nonce)
      fun _ => none).toOption.isSome) :
    (firstUse now nonce).Passes readable "GA" (signedBid nonce).nonce := by
  rcases hok : stellarAuthMiddleware readable "bidder" now (signedBid nonce) fun _ => none with
    message | seen'
  · rw [hok] at h
    exact absurd h Bool.false_ne_true
  · exact ⟨"bidder", signedBid nonce, seen', rfl, hok, rfl, rfl⟩

end Stage

/-- The theorem at a nonce that is used at its own time: it is too old when it is thrown out. -/
theorem passes_once_signedBid : ∃ (tr : List AuthTick) (s : AuthServer),
    AuthRun Stage.readable tr s ∧ tr.length = 2 ∧
      (∃ i ∈ tr, i.Passes Stage.readable "GA" "1700000000000:a") ∧
      tr.Pairwise fun i j => i.Passes Stage.readable "GA" "1700000000000:a" →
        ¬j.Passes Stage.readable "GA" "1700000000000:a" := by
  have hnonce : (Stage.signedBid "1700000000000:a").nonce = "1700000000000:a" := by decide +kernel
  have htime : nonceTimestamp "1700000000000:a" = some 1700000000000 := by decide +kernel
  have hrun := Stage.authRun_firstRound 1700000000000 1700000300001 "1700000000000:a" (by decide)
  have hpass := Stage.passes_firstUse 1700000000000 "1700000000000:a" (by decide +kernel)
  rw [hnonce] at hpass
  refine ⟨_, _, hrun, rfl, ⟨_, List.mem_cons_self, hpass⟩, hrun.passes_once fun i hi => ?_⟩
  rintro ⟨timestamp, nonceMs, hcleanup, -, -, hms, hfresh⟩
  obtain rfl := Option.some.inj (htime.symm.trans hms)
  rcases List.mem_append.mp hi with hi | hi
  · rw [List.mem_singleton.mp hi] at hcleanup
    cases hcleanup
  · rw [List.mem_singleton.mp hi] at hfresh
    exact absurd hfresh (by decide)

/-- **A nonce from the future passes twice**: half a minute ahead, and again five minutes later. -/
theorem exists_replayed : ¬∀ (tr : List AuthTick) (s : AuthServer), AuthRun Stage.readable tr s →
    ∀ address nonce, tr.Pairwise fun i j => i.Passes Stage.readable address nonce →
      ¬j.Passes Stage.readable address nonce := by
  intro hclaim
  have hrun := Stage.authRun_firstRound 1700000000000 1700000300001 "1700000030000:a" (by decide)
  have hpass := Stage.passes_firstUse 1700000000000 "1700000030000:a" (by decide +kernel)
  have hevict : (Stage.firstRound 1700000000000 1700000300001 "1700000030000:a").EvictsFresh
      "GA" (Stage.signedBid "1700000030000:a").nonce :=
    ⟨1700000000000, 1700000030000, rfl, hpass.seen.2.1, by decide, by decide +kernel, by decide⟩
  obtain ⟨k, s', hagain, -, hpass'⟩ :=
    hrun.exists_replay (List.mem_singleton_self _) hpass hevict
  have hpairs := hclaim _ s' hagain "GA" (Stage.signedBid "1700000030000:a").nonce
  rw [List.append_assoc] at hpairs
  exact (List.pairwise_append.mp hpairs).2.2 _ (List.mem_singleton_self _) k (by simp) hpass hpass'

end UrithiBidz
