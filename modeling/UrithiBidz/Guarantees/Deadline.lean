import UrithiBidz.Ledger.Replay

/-!
# The deadline of an auction

The deadline of an English auction limits the bids and is moved by them: a bid that comes
less than five minutes before it moves it to five minutes after the bid. So the deadline a
bid is held against is not the one that was announced, and what a bidder is promised is about
the whole sequence of bids and the call that closes the auction.

One step settles what can happen to a deadline (`UrithiBidz.BookStep.endTime_eq` and
`UrithiBidz.BookStep.placed`). Along a life the bids so far stay ahead of it
(`UrithiBidz.Life.inTime`), since once the auction has been closed there are no more bids.
`UrithiBidz.Run.antiSniping` is what this means in a run: nobody is outbid in the last five
minutes.
-/

namespace UrithiBidz

variable {Address : Type} [DecidableEq Address]

/-! ### Bids and closings -/

/-- The call is a bid. -/
def Invocation.Bids (id : U64) (x : Address) (amount : I128) (i : Invocation Address) : Prop :=
  i.call = .placeBid id x amount

/-- The call ends an auction: it closes it, and there is a winner. -/
def Invocation.Ends (id : U64) (i : Invocation Address) : Prop :=
  i.call = .closeAuction id ∧ ∃ a a', i.before.auctions id = some a ∧
    i.outcome.storage.auctions id = some a' ∧ a.status ≠ .ended ∧ a'.status = .ended

omit [DecidableEq Address] in
theorem Invocation.about_of_bids {id : U64} {x : Address} {amount : I128}
    {i : Invocation Address} (h : i.Bids id x amount) : i.About id := by
  rw [About, show i.call = _ from h]
  rfl

omit [DecidableEq Address] in
theorem Invocation.about_of_ends {id : U64} {i : Invocation Address} (h : i.Ends id) :
    i.About id := by
  rw [About, h.1]
  rfl

variable {env : Env Address} {id : U64} {c : Call Address} {b b' : Book Address}
  {calls : List (TokenCall Address)} {me : Address}

/-! ### One step -/

omit [DecidableEq Address] in
theorem QuietStep.endTime_eq {a a' : Auction Address} (h : QuietStep env id c a a' calls) :
    a'.endTime = a.endTime := by
  cases h <;> rfl

/-- **Only a bid moves a deadline.** -/
theorem BookStep.endTime_eq (h : BookStep env id c b b' calls) {a a' : Auction Address}
    (ha : b.auction = some a) (ha' : b'.auction = some a')
    (hc : ∀ x amount, c ≠ .placeBid id x amount) : a'.endTime = a.endTime := by
  cases h with
  | create hnone => rw [hnone] at ha; cases ha
  | withdraw => rw [Option.some.inj (ha'.symm.trans ha)]
  | firstBid => exact absurd rfl (hc _ _)
  | outbid => exact absurd rfl (hc _ _)
  | quiet hb hq =>
    obtain rfl := Option.some.inj (ha.symm.trans hb)
    obtain rfl := Option.some.inj ha'
    exact hq.endTime_eq
  | _ hb =>
    obtain rfl := Option.some.inj (ha.symm.trans hb)
    have hsame := congrArg Auction.endTime (Option.some.inj ha')
    exact hsame.symm

/-- **What a bid does to a record.** -/
theorem BookStep.placed {x : Address} {amount : I128}
    (h : BookStep env id (.placeBid id x amount) b b' calls) :
    ∃ a, b.auction = some a ∧ AcceptsBid env a x amount ∧
      b'.auction = some (a.withBid env.timestamp x amount) := by
  cases h with
  | firstBid hb ok => exact ⟨_, hb, ok, rfl⟩
  | outbid hb ok => exact ⟨_, hb, ok, rfl⟩
  | quiet hb hq => cases hq

/-- **The deadline is never moved back**, and only that of an English auction is moved. -/
theorem BookStep.endTime_le (h : BookStep env id c b b' calls) {a : Auction Address}
    (ha : b.auction = some a) : ∃ a', b'.auction = some a' ∧ a.endTime ≤ a'.endTime := by
  obtain ⟨a', ha'⟩ := Option.isSome_iff_exists.mp h.isSome
  refine ⟨a', ha', ?_⟩
  by_cases hbid : ∃ x amount, c = .placeBid id x amount
  · obtain ⟨x, amount, rfl⟩ := hbid
    obtain ⟨a₁, ha₁, ok, hplaced⟩ := h.placed
    obtain rfl := Option.some.inj (ha.symm.trans ha₁)
    rw [← Option.some.inj (hplaced.symm.trans ha')]
    exact (extendedEndTime_spec ok.before_end).1
  · rw [h.endTime_eq ha ha' fun x amount hc => hbid ⟨x, amount, hc⟩]

/-- An auction ends when its deadline has passed. -/
theorem BookStep.endTime_le_of_ends (h : BookStep env id (.closeAuction id) b b' calls)
    {a a' : Auction Address} (ha : b.auction = some a) (ha' : b'.auction = some a')
    (hopen : a.status ≠ .ended) (hended : a'.status = .ended) : a.endTime ≤ env.timestamp := by
  cases h with
  | finalize hb _ ht =>
    rw [← Option.some.inj (hb.symm.trans ha)]
    exact ht
  | quiet hb hq =>
    obtain rfl := Option.some.inj (hb.symm.trans ha)
    obtain rfl := Option.some.inj ha'
    cases hq with
    | won _ ht => exact ht
    | unsold _ ht => exact ht
    | idle => exact absurd hended hopen

/-! ### Along a life -/

/-- **The deadline, as the calls so far know it.** -/
structure Auction.InTime (a : Auction Address) (id : U64) (tr : List (Invocation Address)) :
    Prop where
  /-- Every bid came before it. -/
  ahead : ∀ i ∈ tr, ∀ x amount, i.Bids id x amount → i.env.timestamp < a.endTime
  /-- Every bid left the whole window, unless time itself ends before. -/
  window : ∀ i ∈ tr, ∀ x amount, i.Bids id x amount →
    i.env.timestamp.val + 300 ≤ U64.max.val → i.env.timestamp.val + 300 ≤ a.endTime.val
  /-- When the auction ended, it had passed, and it is still the same. -/
  passed : ∀ i ∈ tr, i.Ends id → a.endTime ≤ i.env.timestamp ∧
    ∀ a₁, i.outcome.storage.auctions id = some a₁ → a₁.endTime = a.endTime

omit [DecidableEq Address] in
/-- The deadline stays, and the call is no bid. -/
theorem Auction.InTime.snoc {a a' : Auction Address} {tr : List (Invocation Address)}
    {i : Invocation Address} (h : a.InTime id tr) (hend : a'.endTime = a.endTime)
    (hbid : ∀ x amount, ¬i.Bids id x amount) (hpassed : i.Ends id → a.endTime ≤ i.env.timestamp ∧
      ∀ a₁, i.outcome.storage.auctions id = some a₁ → a₁.endTime = a.endTime) :
    a'.InTime id (tr ++ [i]) := by
  refine ⟨?_, ?_, ?_⟩
  all_goals
    rw [hend]
    intro j hj
    rcases List.mem_append.mp hj with hj | hj
  · exact h.ahead j hj
  · rw [List.mem_singleton.mp hj]
    exact fun x amount hcon => absurd hcon (hbid x amount)
  · exact h.window j hj
  · rw [List.mem_singleton.mp hj]
    exact fun x amount hcon => absurd hcon (hbid x amount)
  · exact h.passed j hj
  · rw [List.mem_singleton.mp hj]
    exact hpassed

omit [DecidableEq Address] in
/-- A bid moves the deadline, if the auction has not ended. -/
theorem Auction.InTime.bid {a : Auction Address} {tr : List (Invocation Address)}
    {i : Invocation Address} (h : a.InTime id tr) (hnow : ∀ j ∈ tr, j.env.timestamp ≤
      i.env.timestamp) {x : Address} {amount : I128} (hi : i.Bids id x amount)
    (hbefore : i.env.timestamp < a.endTime) :
    (a.withBid i.env.timestamp x amount).InTime id (tr ++ [i]) := by
  obtain ⟨hle, hahead, hwindow⟩ := extendedEndTime_spec hbefore
  refine ⟨?_, ?_, ?_⟩
  all_goals
    intro j hj
    rcases List.mem_append.mp hj with hj | hj
  · exact fun x amount hbid => lt_of_lt_of_le (h.ahead j hj x amount hbid) hle
  · rw [List.mem_singleton.mp hj]
    exact fun _ _ _ => hahead
  · exact fun x amount hbid hmax => (h.window j hj x amount hbid hmax).trans hle
  · rw [List.mem_singleton.mp hj]
    exact fun _ _ _ => hwindow
  · -- no bid is accepted once the auction has ended
    intro hends
    exact absurd ((h.passed j hj hends).1.trans (hnow j hj)) (not_le_of_gt hbefore)
  · rw [List.mem_singleton.mp hj]
    intro hends
    cases hends.1.symm.trans hi

/-- **All bids are in time**, and none comes after the auction has ended. -/
theorem Life.inTime {tr : List (Invocation Address)} {p : Book Address × U64}
    (h : Life me id tr p) : ∀ a, p.1.auction = some a → a.InTime id tr := by
  refine induct (P := fun tr b _ => ∀ a, b.auction = some a → a.InTime id tr)
    (fun _ _ ha => by cases ha) ?_ h
  intro tr b now env s c s' events calls value b' hl ih hstep _ _ htime _ hbefore hafter a' ha'
  cases ha : b.auction with
  | none =>
    -- the auction has just been created
    obtain ⟨rfl, -⟩ := hl.unborn ha
    refine ⟨?_, ?_, ?_⟩
    all_goals
      intro i hi
      rw [List.mem_singleton.mp hi]
    · rintro x amount ⟨⟩
      obtain ⟨a₁, ha₁, -⟩ := hstep.placed
      exact absurd (ha.symm.trans ha₁) (Option.some_ne_none a₁).symm
    · rintro x amount ⟨⟩
      obtain ⟨a₁, ha₁, -⟩ := hstep.placed
      exact absurd (ha.symm.trans ha₁) (Option.some_ne_none a₁).symm
    · rintro ⟨-, a₁, -, ha₁, -⟩
      rw [← hbefore] at ha
      exact absurd (ha.symm.trans ha₁) (Option.some_ne_none a₁).symm
  | some a =>
    by_cases hbid : ∃ x amount, c = .placeBid id x amount
    · obtain ⟨x, amount, rfl⟩ := hbid
      obtain ⟨a₁, ha₁, ok, hplaced⟩ := hstep.placed
      obtain rfl := Option.some.inj (ha.symm.trans ha₁)
      rw [← Option.some.inj (hplaced.symm.trans ha')]
      exact (ih a ha).bid (i := ⟨env, s, .placeBid id x amount, ⟨s', events, calls, value⟩⟩)
        (fun j hj => (hl.time_le j hj).trans htime) rfl ok.before_end
    · refine (ih a ha).snoc (hstep.endTime_eq ha ha' ?_) ?_ ?_
      · exact fun x amount hc => hbid ⟨x, amount, hc⟩
      · exact fun x amount hc => hbid ⟨x, amount, hc⟩
      · rintro ⟨hcall, a₁, a₂, ha₁, ha₂, hopen, hended⟩
        obtain rfl : c = .closeAuction id := hcall
        rw [← hbefore] at ha
        rw [← hafter] at ha'
        obtain rfl := Option.some.inj (ha.symm.trans ha₁)
        obtain rfl := Option.some.inj (ha'.symm.trans ha₂)
        refine ⟨hstep.endTime_le_of_ends (hbefore ▸ ha) (hafter ▸ ha') hopen hended, ?_⟩
        intro a₃ ha₃
        obtain rfl := Option.some.inj (ha'.symm.trans ha₃)
        exact hstep.endTime_eq (hbefore ▸ ha) (hafter ▸ ha') fun x amount hc =>
          hbid ⟨x, amount, hc⟩

/-! ### Along a run -/

/-- **Nobody is sniped.** What the deadline of an auction promises, along a run. -/
structure AntiSniping {H : Host Address} (id : U64) (tr : List (Invocation Address))
    (w : World H) : Prop where
  /-- No call moves the deadline back. -/
  never_earlier : ∀ i ∈ tr, ∀ a, i.before.auctions id = some a →
    ∃ a', i.outcome.storage.auctions id = some a' ∧ a.endTime ≤ a'.endTime
  /-- Nor do any number of calls. -/
  monotone : ∀ i ∈ tr, ∀ a, i.outcome.storage.auctions id = some a →
    ∃ a', w.storage.auctions id = some a' ∧ a.endTime ≤ a'.endTime
  /-- Only a bid moves it, and only that of an English auction. -/
  moved_by_bid : ∀ i ∈ tr, ∀ a a', i.before.auctions id = some a →
    i.outcome.storage.auctions id = some a' → a'.endTime ≠ a.endTime →
      a.format = .english ∧ ∃ x amount, i.Bids id x amount
  /-- A bid comes before the deadline, and leaves five minutes. -/
  window : ∀ i ∈ tr, ∀ x amount, i.Bids id x amount → ∃ a a',
    i.before.auctions id = some a ∧ i.outcome.storage.auctions id = some a' ∧
      i.env.timestamp < a.endTime ∧ (i.env.timestamp.val ≤ U64.max.val - 300 →
        i.env.timestamp.val + 300 ≤ a'.endTime.val)
  /-- When the auction ends, all bids are at least five minutes old. -/
  settled_down : ∀ i ∈ tr, ∀ j ∈ tr, ∀ x amount, i.Bids id x amount → j.Ends id →
    i.env.timestamp.val ≤ U64.max.val - 300 →
      i.env.timestamp.val ≤ j.env.timestamp.val - 300
  /-- No bid is placed at the deadline at which the auction ends, or later. -/
  no_late_bid : ∀ i ∈ tr, ∀ j ∈ tr, ∀ x amount, i.Bids id x amount → j.Ends id →
    ∀ a, j.outcome.storage.auctions id = some a → i.env.timestamp < a.endTime

variable {H : Host Address} {tr : List (Invocation Address)} {w : World H}

/-- Two calls about an auction know one and the same deadline. -/
theorem Run.inTime_of_mem (h : Run H tr w) {i j : Invocation Address} (hi : i ∈ tr) (hj : j ∈ tr)
    (hid : i.About id) (hjd : j.About id) : ∃ a : Auction Address,
      a.InTime id (tr.filter (·.About id)) ∧ i ∈ tr.filter (·.About id) ∧
        j ∈ tr.filter (·.About id) := by
  obtain ⟨now, -, hlife⟩ := h.life id
  have hmem : i ∈ tr.filter (·.About id) := List.mem_filter.mpr ⟨hi, by simpa using hid⟩
  cases ha : (w.storage.book id).auction with
  | none =>
    rw [(hlife.unborn ha).1] at hmem
    exact absurd hmem List.not_mem_nil
  | some a =>
    exact ⟨a, hlife.inTime a ha, hmem, List.mem_filter.mpr ⟨hj, by simpa using hjd⟩⟩

/-- **Nobody is sniped**, in any run. -/
theorem Run.antiSniping (h : Run H tr w) (id : U64) : AntiSniping id tr w where
  never_earlier := by
    refine h.record_step (R := fun a a' => a.endTime ≤ a'.endTime) (fun a => le_refl _) ?_
    exact fun hstep a ha => hstep.endTime_le ha
  monotone := by
    refine h.record_since (R := fun a a' => a.endTime ≤ a'.endTime) (fun a => le_refl _) ?_
      fun _ _ _ h₁ h₂ => h₁.trans h₂
    exact fun hstep a ha => hstep.endTime_le ha
  moved_by_bid i hi a a' ha ha' hmoved := by
    by_cases hid : i.About id
    · have hstep := h.bookStep_of_mem hi hid
      have hbid : ∃ x amount, i.call = .placeBid id x amount := by
        by_contra hno
        exact hmoved (hstep.endTime_eq ha ha' fun x amount hc => hno ⟨x, amount, hc⟩)
      obtain ⟨x, amount, hc⟩ := hbid
      rw [hc] at hstep
      obtain ⟨a₁, ha₁, ok, -⟩ := hstep.placed
      obtain rfl := Option.some.inj (ha.symm.trans ha₁)
      exact ⟨ok.format, x, amount, hc⟩
    · have hsame := congrArg Book.auction (h.frame hi hid)
      obtain rfl := Option.some.inj (ha'.symm.trans (hsame.trans ha))
      exact absurd rfl hmoved
  window i hi x amount hbid := by
    have hstep := h.bookStep_of_mem hi (i.about_of_bids hbid)
    rw [show i.call = _ from hbid] at hstep
    obtain ⟨a, ha, ok, ha'⟩ := hstep.placed
    obtain ⟨-, -, hwindow⟩ := extendedEndTime_spec ok.before_end
    exact ⟨a, _, ha, ha', ok.before_end, fun hmax => hwindow (by omega)⟩
  settled_down i hi j hj x amount hbid hends hmax := by
    -- the bid and the closing know one and the same last deadline
    obtain ⟨a, htime, hi, hj⟩ :=
      h.inTime_of_mem hi hj (i.about_of_bids hbid) (j.about_of_ends hends)
    have hleft := htime.window i hi x amount hbid (by omega)
    have hpassed := Ranged.le_iff.mp (htime.passed j hj hends).1
    omega
  no_late_bid i hi j hj x amount hbid hends a₁ ha₁ := by
    obtain ⟨a, htime, hi, hj⟩ :=
      h.inTime_of_mem hi hj (i.about_of_bids hbid) (j.about_of_ends hends)
    rw [(htime.passed j hj hends).2 a₁ ha₁]
    exact htime.ahead i hi x amount hbid

/-- Two bids, the second of them two seconds before the deadline that the first has moved. -/
def Stage.sniping : List (Tx ℕ × Call ℕ) :=
  Stage.opening .english Stage.painting ++
    [(Stage.signed 2 1, .activateAuction 0),
      (Stage.signed 3 (.of 2), .placeBid 0 3 (.of 100)),
      (Stage.signed 4 (.of 300), .placeBid 0 4 (.of 110)),
      (Stage.signed 3 (.of 302), .closeAuction 0),
      (Stage.signed 3 (.of 600), .closeAuction 0)]

/-- The theorem at these bids. -/
theorem antiSniping_sniping : ∃ (tr : List (Invocation ℕ)) (w : World Stage.host),
    Run Stage.host tr w ∧ ((w.storage.auctions 0).map fun a => (a.status, a.endTime)) =
      some (.ended, .of 600) ∧ AntiSniping 0 tr w := by
  have hreplay : (replay Stage.start Stage.sniping).map (fun r =>
      (r.2.storage.auctions 0).map fun a => (a.status, a.endTime)) =
        some (some (.ended, .of 600)) := by decide +kernel
  obtain ⟨tr, w, hrun, hend⟩ := exists_run_of_replay Stage.world_refl rfl hreplay
  exact ⟨tr, w, hrun, hend, hrun.antiSniping 0⟩

end UrithiBidz
