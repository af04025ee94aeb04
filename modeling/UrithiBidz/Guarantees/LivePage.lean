import UrithiBidz.Frontend.AuctionPage

/-!
# When the page of an auction does not come to rest

The effects that bring the page up to date depend on the auction, since they do nothing before it
has come, and they replace it. Replaced, it makes the page draw itself once more and run them again.

The page keeps the last bid, the last closing and the last settlement that it has heard of, and the
effects act on those that are about its own auction. So the page is `PageView.Concerned` if it has
the auction and one of the three is about it, and this is when it cannot come to rest: it is drawn
and brought up to date without end (`UrithiBidz.PageRun.restless`). It stays so as long as what it
hears is about its own auction. What it hears of another one displaces what it had heard of its own,
and once nothing is left of that, it can come to rest; and what it hears before it has the auction
waits until it has.

While the last bid that it has heard of is about its own auction, this bid is put in the list every
time, and what the server answers in between is overwritten with what was heard
(`UrithiBidz.PageRun.repeated`).

The page is an instance of `Component`, whose calls are what it has heard of its own auction
(`UrithiBidz.AuctionPage.stirs`). The auction with the number zero is spared: its page does not
listen to the socket.
-/

namespace UrithiBidz

variable {auctionId : ℤ} {toISOString : ℤ → String} {now : ℤ} {ran : Option PageView}
  {drawn u v w : PageView} {p p' p'' : PageValues} {s s' : AuctionPage} {tr : List PageTick}

/-- A view is later if all of it is, and an auction that was there is still there. -/
instance : Preorder PageView where
  le v w := v.auction ≤ w.auction ∧ v.latestBid ≤ w.latestBid ∧
    v.auctionClosed ≤ w.auctionClosed ∧ v.auctionSettled ≤ w.auctionSettled ∧
      (v.auction.value.isSome = true → w.auction.value.isSome = true)
  le_refl _ := ⟨le_refl _, le_refl _, le_refl _, le_refl _, id⟩
  le_trans _ _ _ h h' := ⟨h.1.trans h'.1, h.2.1.trans h'.2.1, h.2.2.1.trans h'.2.2.1,
    h.2.2.2.1.trans h'.2.2.2.1, h'.2.2.2.2 ∘ h.2.2.2.2⟩

/-- **The page is concerned**: it has its auction, and the last bid, the last closing or the last
settlement that it has heard of is about it. -/
def PageView.Concerned (auctionId : ℤ) (v : PageView) : Prop :=
  v.auction.value.isSome = true ∧ (v.latestBid.value.map (·.auctionId) = some auctionId ∨
    v.auctionClosed.value.map (·.auctionId) = some auctionId ∨
      v.auctionSettled.value.map (·.auctionId) = some auctionId)

namespace AuctionPage

/-! ### What the effects leave alone -/

/-- What the effects do to the view: the auction may be replaced, and stays if there is one. -/
structure Keeps (v w : PageView) : Prop where
  auction_le : v.auction ≤ w.auction
  isSome_eq : w.auction.value.isSome = v.auction.value.isSome
  latestBid_eq : w.latestBid = v.latestBid
  auctionClosed_eq : w.auctionClosed = v.auctionClosed
  auctionSettled_eq : w.auctionSettled = v.auctionSettled

theorem Keeps.refl (v : PageView) : Keeps v v := ⟨le_refl _, rfl, rfl, rfl, rfl⟩

theorem Keeps.trans (h : Keeps u v) (h' : Keeps v w) : Keeps u w :=
  ⟨h.auction_le.trans h'.auction_le, h'.isSome_eq.trans h.isSome_eq,
    h'.latestBid_eq.trans h.latestBid_eq, h'.auctionClosed_eq.trans h.auctionClosed_eq,
    h'.auctionSettled_eq.trans h.auctionSettled_eq⟩

theorem Keeps.le (h : Keeps v w) : v ≤ w :=
  ⟨h.auction_le, h.latestBid_eq.ge, h.auctionClosed_eq.ge, h.auctionSettled_eq.ge,
    fun hsome => h.isSome_eq.trans hsome⟩

theorem Keeps.concerned_iff (h : Keeps v w) : w.Concerned auctionId ↔ v.Concerned auctionId := by
  unfold PageView.Concerned
  rw [h.isSome_eq, h.latestBid_eq, h.auctionClosed_eq, h.auctionSettled_eq]

theorem keeps_setAuction (f : AuctionItem → AuctionItem) (p : PageValues) :
    Keeps p.view (setAuction f p).view := by
  refine ⟨Cell.le_amend f _, ?_, rfl, rfl, rfl⟩
  rw [setAuction, Cell.value_amend, Option.isSome_map]

theorem lt_setAuction (f : AuctionItem → AuctionItem) (h : p.view.auction.value.isSome = true) :
    p.view.auction < (setAuction f p).view.auction :=
  Cell.lt_amend f h

theorem keeps_runIf (changed : Prop) [Decidable changed] {effect : PageValues → PageValues}
    (h : ∀ p, Keeps p.view (effect p).view) (p : PageValues) :
    Keeps p.view (runIf changed effect p).view := by
  unfold runIf
  split
  · exact h p
  · exact .refl _

theorem view_subscribe (p : PageValues) : (subscribe auctionId p).view = p.view := by
  unfold subscribe
  dsimp only
  split
  · rfl
  · split <;> rfl

variable (auctionId) in
theorem view_runRequests (ran : Option PageView) (drawn : PageView) (p : PageValues) :
    (runRequests auctionId ran drawn p).view = p.view := by
  simp only [runRequests, runIf]
  split
  · split
    · exact view_subscribe p
    · rfl
  · split
    · exact view_subscribe p
    · rfl

variable (auctionId toISOString) in
theorem keeps_applyBid (now : ℤ) (drawn : PageView) (p : PageValues) :
    Keeps p.view (applyBid auctionId toISOString now drawn p).view := by
  unfold applyBid
  split
  · split
    · exact keeps_setAuction _ p
    · exact .refl _
  · exact .refl _

variable (auctionId) in
theorem keeps_applyStatus (status : String) (heard : Option ℤ) (drawn : PageView)
    (p : PageValues) : Keeps p.view (applyStatus auctionId status heard drawn p).view := by
  unfold applyStatus
  split
  · exact keeps_setAuction _ p
  · exact .refl _

variable (auctionId toISOString) in
theorem keeps_runEffects (now : ℤ) (ran : Option PageView) (drawn : PageView) (p : PageValues) :
    Keeps p.view (runEffects auctionId toISOString now ran drawn p).view := by
  have hrequests := view_runRequests auctionId ran drawn p
  simp only [runEffects]
  refine .trans (.trans (.trans (hrequests ▸ .refl _) (keeps_runIf _ ?_ _)) (keeps_runIf _ ?_ _))
    (keeps_runIf _ ?_ _)
  · exact keeps_applyBid auctionId toISOString now drawn
  · exact keeps_applyStatus auctionId _ _ drawn
  · exact keeps_applyStatus auctionId _ _ drawn

/-! ### When the effects run -/

variable (auctionId) in
/-- What is drawn comes after what was followed up last, and if that was a call the auction has been
replaced since. -/
def Fits (ran : Option PageView) (drawn : PageView) : Prop :=
  ∀ u ∈ ran, u ≤ drawn ∧ (u.Concerned auctionId → u.auction < drawn.auction)

/-- **A call runs its effect**, if what is drawn fits. -/
theorem changed_of_about {β : Type} {notice : PageView → Cell (Option β)} {about : β → ℤ}
    (hran : Fits auctionId ran drawn)
    (hnotice : ∀ u, u ≤ drawn → notice u ≤ notice drawn)
    (hcalls : ∀ u, u.auction.value.isSome = true → (notice u).value.map about = some auctionId →
      u.Concerned auctionId)
    (hauction : drawn.auction.value.isSome = true)
    (habout : (notice drawn).value.map about = some auctionId) :
    (notice drawn).Changed (ran.map notice) ∨ drawn.auction.Changed (ran.map (·.auction)) := by
  rcases ran with _ | u
  · exact Or.inl (Cell.changed_none _)
  · obtain ⟨hle, hlt⟩ := hran u rfl
    rw [Option.map_some, Option.map_some, Cell.changed_some_iff (hnotice u hle),
      Cell.changed_some_iff hle.1]
    rcases hle.1 with hsame | hauctionLt
    · -- with the same auction and the same notice it would have been a call already
      rcases hnotice u hle with heq | hnoticeLt
      · exact Or.inr (hlt (hcalls u (hsame ▸ hauction) (heq ▸ habout)))
      · exact Or.inl hnoticeLt
    · exact Or.inr hauctionLt

/-- An effect that would do nothing may as well run. -/
theorem runIf_eq {changed : Prop} [Decidable changed] {effect : PageValues → PageValues}
    (h : ¬changed → ∀ p, effect p = p) (p : PageValues) : runIf changed effect p = effect p := by
  unfold runIf
  split
  · rfl
  · next hno => exact (h hno p).symm

/-- The effect of a bid does nothing without an auction, or for a bid on another one. -/
theorem applyBid_of_not (h : ¬(drawn.auction.value.isSome = true ∧
    drawn.latestBid.value.map (·.auctionId) = some auctionId)) :
    applyBid auctionId toISOString now drawn p = p := by
  unfold applyBid
  split
  · next latestBid auction hlatest hauction =>
    refine if_neg fun habout => h ⟨by rw [hauction]; rfl, ?_⟩
    rw [hlatest, Option.map_some, habout]
  · rfl

/-- **After a call all effects run**, as far as they do anything. -/
theorem runEffects_eq
    (hran : Fits auctionId ran drawn) :
    runEffects auctionId toISOString now ran drawn p =
      applySettled auctionId drawn (applyClosed auctionId drawn
        (applyBid auctionId toISOString now drawn (runRequests auctionId ran drawn p))) := by
  have hbid : ¬(drawn.latestBid.Changed (ran.map (·.latestBid)) ∨
      drawn.auction.Changed (ran.map (·.auction))) →
        ∀ p, applyBid auctionId toISOString now drawn p = p := by
    intro hno p
    refine applyBid_of_not fun ⟨hauction, habout⟩ => hno ?_
    exact changed_of_about hran (fun u hu => hu.2.1) (fun u hsome h => ⟨hsome, Or.inl h⟩)
      hauction habout
  have hclosed : ¬(drawn.auctionClosed.Changed (ran.map (·.auctionClosed)) ∨
      drawn.auction.Changed (ran.map (·.auction))) → ∀ p, applyClosed auctionId drawn p = p := by
    intro hno p
    refine if_neg fun ⟨habout, hauction⟩ => hno ?_
    exact changed_of_about hran (fun u hu => hu.2.2.1)
      (fun u hsome h => ⟨hsome, Or.inr (Or.inl h)⟩) hauction habout
  have hsettled : ¬(drawn.auctionSettled.Changed (ran.map (·.auctionSettled)) ∨
      drawn.auction.Changed (ran.map (·.auction))) → ∀ p, applySettled auctionId drawn p = p := by
    intro hno p
    refine if_neg fun ⟨habout, hauction⟩ => hno ?_
    exact changed_of_about hran (fun u hu => hu.2.2.2.1)
      (fun u hsome h => ⟨hsome, Or.inr (Or.inr h)⟩) hauction habout
  simp only [runEffects]
  rw [runIf_eq hbid, runIf_eq hclosed, runIf_eq hsettled]

theorem lt_applyBid (habout : drawn.latestBid.value.map (·.auctionId) = some auctionId)
    (hauction : drawn.auction.value.isSome = true) (hsome : p.view.auction.value.isSome = true) :
    p.view.auction < (applyBid auctionId toISOString now drawn p).view.auction := by
  obtain ⟨latestBid, hlatest, hid⟩ := Option.map_eq_some_iff.mp habout
  obtain ⟨auction, hdrawn⟩ := Option.isSome_iff_exists.mp hauction
  simp only [applyBid, hlatest, hdrawn, if_pos hid]
  exact lt_setAuction _ hsome

theorem lt_applyStatus {status : String} {heard : Option ℤ} (habout : heard = some auctionId)
    (hauction : drawn.auction.value.isSome = true) (hsome : p.view.auction.value.isSome = true) :
    p.view.auction < (applyStatus auctionId status heard drawn p).view.auction := by
  rw [applyStatus, if_pos ⟨habout, hauction⟩]
  exact lt_setAuction _ hsome

/-- **A call replaces the auction.** -/
theorem lt_runEffects
    (hran : Fits auctionId ran drawn)
    (hle : drawn ≤ p.view) (hcalls : drawn.Concerned auctionId) :
    drawn.auction < (runEffects auctionId toISOString now ran drawn p).view.auction := by
  obtain ⟨hauction, hheard⟩ := hcalls
  rw [runEffects_eq hran]
  have hrequests := view_runRequests auctionId ran drawn p
  rw [← hrequests] at hle
  generalize runRequests auctionId ran drawn p = q at hle
  have hsome := hle.2.2.2.2 hauction
  have hbid := keeps_applyBid auctionId toISOString now drawn q
  have hsome' := hbid.isSome_eq.trans hsome
  -- each of the three effects may be the one that replaces the auction
  generalize hq' : applyBid auctionId toISOString now drawn q = q' at hbid hsome'
  have hclosed : Keeps q'.view (applyClosed auctionId drawn q').view := keeps_applyStatus ..
  have hsettled := keeps_applyStatus auctionId "settled"
    (drawn.auctionSettled.value.map (·.auctionId)) drawn (applyClosed auctionId drawn q')
  refine hle.1.trans_lt ?_
  rcases hheard with habout | habout | habout
  · rw [← hq'] at *
    exact (lt_applyBid habout hauction hsome).trans_le
      (hclosed.auction_le.trans hsettled.auction_le)
  · exact hbid.auction_le.trans_lt
      ((lt_applyStatus habout hauction hsome').trans_le hsettled.auction_le)
  · exact (hbid.auction_le.trans hclosed.auction_le).trans_lt
      (lt_applyStatus habout hauction (hclosed.isSome_eq.trans hsome'))

theorem view_runEffects_of_not (hcalm : ¬drawn.Concerned auctionId) :
    (runEffects auctionId toISOString now ran drawn p).view = p.view := by
  have hbid : ∀ p, applyBid auctionId toISOString now drawn p = p := fun p =>
    applyBid_of_not fun h => hcalm ⟨h.1, Or.inl h.2⟩
  have hclosed : ∀ p, applyClosed auctionId drawn p = p := fun p =>
    if_neg fun h => hcalm ⟨h.2, Or.inr (Or.inl h.1)⟩
  have hsettled : ∀ p, applySettled auctionId drawn p = p := fun p =>
    if_neg fun h => hcalm ⟨h.2, Or.inr (Or.inr h.1)⟩
  simp only [runEffects, runIf, hbid, hclosed, hsettled, ite_self, view_runRequests]

/-! ### What the effects amount to -/

variable (auctionId) in
/-- An auction with the latest bid, if that is a bid on it. -/
def overlayBid (latestBid : Option BidEvent) (item : AuctionItem) : AuctionItem :=
  match latestBid with
  | some latestBid => if latestBid.auctionId = auctionId then withBid latestBid item else item
  | none => item

variable (auctionId) in
/-- An auction with another status, if it is the one that was heard of. -/
def overlayStatus (status : String) (heard : Option ℤ) (item : AuctionItem) : AuctionItem :=
  if heard = some auctionId then withStatus status item else item

variable (auctionId) in
/-- What is shown of an auction, once what was heard is applied. -/
def overlay (v : PageView) (item : AuctionItem) : AuctionItem :=
  overlayStatus auctionId "settled" (v.auctionSettled.value.map (·.auctionId))
    (overlayStatus auctionId "closed" (v.auctionClosed.value.map (·.auctionId))
      (overlayBid auctionId v.latestBid.value item))

variable (auctionId toISOString) in
/-- The bid that is put in the list, if there is one. -/
def bidNews (now : ℤ) (v : PageView) : List BidItem :=
  match v.latestBid.value, v.auction.value with
  | some latestBid, some auction =>
    if latestBid.auctionId = auctionId then [bidItem auctionId toISOString now auction latestBid]
    else []
  | _, _ => []

theorem bids_runRequests (ran : Option PageView) (drawn : PageView) (p : PageValues) :
    (runRequests auctionId ran drawn p).bids = p.bids := by
  have hsubscribe : ∀ p : PageValues, (subscribe auctionId p).bids = p.bids := by
    intro p
    unfold subscribe
    dsimp only
    split
    · rfl
    · split <;> rfl
  simp only [runRequests, runIf]
  split
  · split
    · exact hsubscribe p
    · rfl
  · split
    · exact hsubscribe p
    · rfl

theorem bids_applyStatus (status : String) (heard : Option ℤ) (p : PageValues) :
    (applyStatus auctionId status heard drawn p).bids = p.bids := by
  unfold applyStatus
  split <;> rfl

theorem bids_applyBid (p : PageValues) :
    (applyBid auctionId toISOString now drawn p).bids =
      bidNews auctionId toISOString now drawn ++ p.bids := by
  unfold applyBid bidNews
  rcases drawn.latestBid.value with _ | latestBid
  · rfl
  · rcases drawn.auction.value with _ | auction
    · rfl
    · dsimp only
      split <;> rfl

theorem value_applyStatus (status : String) (heard : Option ℤ) (p : PageValues)
    (hauction : drawn.auction.value.isSome = true) :
    (applyStatus auctionId status heard drawn p).view.auction.value =
      p.view.auction.value.map (overlayStatus auctionId status heard) := by
  unfold applyStatus overlayStatus
  by_cases habout : heard = some auctionId
  · simp [habout, hauction, setAuction]
  · simp [habout]

theorem value_applyBid (p : PageValues) (hauction : drawn.auction.value.isSome = true) :
    (applyBid auctionId toISOString now drawn p).view.auction.value =
      p.view.auction.value.map (overlayBid auctionId drawn.latestBid.value) := by
  obtain ⟨auction, hdrawn⟩ := Option.isSome_iff_exists.mp hauction
  unfold applyBid overlayBid
  rw [hdrawn]
  rcases drawn.latestBid.value with _ | latestBid
  · simp
  · by_cases habout : latestBid.auctionId = auctionId
    · simp [habout, setAuction]
    · simp [habout]

/-- **What the effects do after a call**: the auction is overlaid with what was heard, and a bid is
put in the list. -/
theorem runEffects_of_ran (toISOString : ℤ → String) (now : ℤ)
    (hran : Fits auctionId ran p.view) :
    (runEffects auctionId toISOString now ran p.view p).view.auction.value =
        p.view.auction.value.map (overlay auctionId p.view) ∧
      (runEffects auctionId toISOString now ran p.view p).bids =
        bidNews auctionId toISOString now p.view ++ p.bids := by
  have hkeeps := keeps_runEffects auctionId toISOString now ran p.view p
  constructor
  · rcases hauction : p.view.auction.value.isSome with _ | _
    · have hnone := hkeeps.isSome_eq.trans hauction
      rw [Option.isSome_eq_false_iff, Option.isNone_iff_eq_none] at hauction hnone
      rw [hnone, hauction, Option.map_none]
    · rw [runEffects_eq hran, applySettled, applyClosed, value_applyStatus _ _ _ hauction,
        value_applyStatus _ _ _ hauction, value_applyBid _ hauction, view_runRequests,
        Option.map_map, Option.map_map]
      rfl
  · rw [runEffects_eq hran, applySettled, applyClosed, bids_applyStatus, bids_applyStatus,
      bids_applyBid, bids_runRequests]

theorem overlay_overlay (v : PageView) (item : AuctionItem) :
    overlay auctionId v (overlay auctionId v item) = overlay auctionId v item := by
  unfold overlay overlayStatus overlayBid
  rcases v.latestBid.value with _ | latestBid
  · dsimp only
    split <;> split <;> rfl
  · dsimp only
    split <;> split <;> split <;> rfl

theorem format_overlay (v : PageView) (item : AuctionItem) :
    (overlay auctionId v item).format = item.format := by
  unfold overlay overlayStatus overlayBid
  rcases v.latestBid.value with _ | latestBid
  · dsimp only
    split <;> split <;> rfl
  · dsimp only
    split <;> split <;> split <;> rfl

/-! ### The page as a component -/

variable (auctionId toISOString) in
/-- The page, as a component. -/
def component : Component PageValues PageView where
  view := PageValues.view
  follows ran drawn p p' := ∃ now, p' = runEffects auctionId toISOString now ran drawn p

variable (auctionId) in
/-- What else happens to its values. -/
def Outside (p p' : PageValues) : Prop := ∃ event, outside auctionId p event = some p'

variable (auctionId) in
/-- What an event from outside makes of the view. -/
def Event.viewed (v : PageView) : Event → PageView
  | .newBid data => { v with latestBid := v.latestBid.set (some data) }
  | .closed data => { v with auctionClosed := v.auctionClosed.set (some data) }
  | .settled data => { v with auctionSettled := v.auctionSettled.set (some data) }
  | .cancelled =>
    { v with auctionClosed := v.auctionClosed.set (some ⟨auctionId, "", "0", "english"⟩) }
  | .auctionAnswer (some item) => { v with auction := v.auction.set (some item) }
  | _ => v

/-- **What an event from outside does to the view.** -/
theorem view_of_outside {event : Event} (h : outside auctionId p event = some p') :
    p'.view = event.viewed auctionId p.view := by
  -- what is heard is put into the view, and all else into other fields
  have hhear : ∀ {view : PageView}, hear p view = some p' → p'.view = view := by
    intro view h
    unfold hear at h
    split at h
    · cases h
      rfl
    · cases h
  cases event with
  | draw => cases h
  | followUp => cases h
  | connect =>
    simp only [outside] at h
    split at h
    · cases h
    · obtain rfl := Option.some.inj h
      split <;> rfl
  | disconnect =>
    simp only [outside] at h
    split at h
    · obtain rfl := Option.some.inj h
      split <;> rfl
    · cases h
  | newBid data => exact hhear h
  | closed data => exact hhear h
  | settled data => exact hhear h
  | cancelled => exact hhear h
  | auctionAnswer data =>
    simp only [outside] at h
    split at h
    · cases h
    · obtain rfl := Option.some.inj h
      rcases data with _ | item <;> rfl
  | bidsAnswer data =>
    simp only [outside] at h
    split at h
    · cases h
    · obtain rfl := Option.some.inj h
      rfl
  | refresh =>
    obtain rfl := Option.some.inj h
    rfl

/-- **Nothing from outside takes the page back.** -/
theorem Event.le_viewed (event : Event) (v : PageView) : v ≤ event.viewed auctionId v := by
  cases event with
  | newBid data => exact ⟨le_refl _, (Cell.lt_set _ _).le, le_refl _, le_refl _, id⟩
  | closed data => exact ⟨le_refl _, le_refl _, (Cell.lt_set _ _).le, le_refl _, id⟩
  | settled data => exact ⟨le_refl _, le_refl _, le_refl _, (Cell.lt_set _ _).le, id⟩
  | cancelled => exact ⟨le_refl _, le_refl _, (Cell.lt_set _ _).le, le_refl _, id⟩
  | auctionAnswer data =>
    rcases data with _ | item
    · exact le_refl v
    · exact ⟨(Cell.lt_set _ _).le, le_refl _, le_refl _, le_refl _, fun _ => rfl⟩
  | _ => exact le_refl v

/-- Something is heard that is about another auction. -/
def Event.Foreign (auctionId : ℤ) : Event → Prop
  | .newBid data => data.auctionId ≠ auctionId
  | .closed data => data.auctionId ≠ auctionId
  | .settled data => data.auctionId ≠ auctionId
  | _ => False

/-- **A page that is concerned stays so**, unless it hears of another auction. -/
theorem Event.concerned_viewed {event : Event} (hforeign : ¬event.Foreign auctionId)
    (h : v.Concerned auctionId) : (event.viewed auctionId v).Concerned auctionId := by
  obtain ⟨hauction, hheard⟩ := h
  cases event with
  | newBid data => exact ⟨hauction, Or.inl (congrArg some (not_not.mp hforeign))⟩
  | closed data => exact ⟨hauction, Or.inr (Or.inl (congrArg some (not_not.mp hforeign)))⟩
  | settled data => exact ⟨hauction, Or.inr (Or.inr (congrArg some (not_not.mp hforeign)))⟩
  | cancelled => exact ⟨hauction, Or.inr (Or.inl rfl)⟩
  | auctionAnswer data =>
    rcases data with _ | item
    · exact ⟨hauction, hheard⟩
    · exact ⟨rfl, hheard⟩
  | _ => exact ⟨hauction, hheard⟩

/-- **The page replaces what it depends on.** -/
theorem stirs : (component auctionId toISOString).Stirs (Outside auctionId)
    (PageView.Concerned auctionId) (·.auction) where
  monotone _ _ h := h.1
  other p p' h := by
    obtain ⟨event, h⟩ := h
    exact (event.le_viewed p.view).trans_eq (view_of_outside h).symm
  follows := by
    rintro ran drawn p _ ⟨now, rfl⟩
    exact (keeps_runEffects auctionId toISOString now ran drawn p).le
  calls := by
    rintro ran drawn p _ ⟨now, rfl⟩ hle hcalls hran
    exact lt_runEffects hran hle hcalls

/-! ### Along a run -/

/-- **What an event does**: the page is drawn, or follows up, or something else happens to its
values. -/
theorem next_cases {event : Event} (h : next auctionId toISOString now s event = some s') :
    (event = .draw ∧ s.pending = none ∧ s' = { s with pending := some s.values.view }) ∨
    (event = .followUp ∧ ∃ drawn, s.pending = some drawn ∧
      s' = ⟨runEffects auctionId toISOString now s.ran drawn s.values, none, some drawn⟩) ∨
    (∃ values, outside auctionId s.values event = some values ∧
      s' = { s with values := values }) := by
  have houtside : (outside auctionId s.values event).map (fun values =>
      ({ s with values := values } : AuctionPage)) = some s' →
        ∃ values, outside auctionId s.values event = some values ∧
          s' = { s with values := values } := by
    intro h
    obtain ⟨values, hvalues, rfl⟩ := Option.map_eq_some_iff.mp h
    exact ⟨values, hvalues, rfl⟩
  cases event with
  | draw =>
    simp only [next] at h
    split at h
    · next hpending => exact Or.inl ⟨rfl, hpending, (Option.some.inj h).symm⟩
    · cases h
  | followUp =>
    obtain ⟨drawn, hpending, rfl⟩ := Option.map_eq_some_iff.mp h
    exact Or.inr (Or.inl ⟨rfl, drawn, hpending, rfl⟩)
  | _ => exact Or.inr (Or.inr (houtside h))

end AuctionPage

open AuctionPage

/-- The page is at rest: nothing is left to follow up, and if it were drawn once more, no effect
would run. -/
def AuctionPage.AtRest (s : AuctionPage) : Prop := s.pending = none ∧ s.ran = some s.values.view

/-- What the page does by itself. -/
def PageTick.IsOwn (i : PageTick) : Prop := i.event = .draw ∨ i.event = .followUp

variable (auctionId toISOString) in
/-- The page can come to rest by itself. -/
def AuctionPage.Settles (s : AuctionPage) : Prop :=
  ∃ later s', History (fun t => t = s) (PageStep auctionId toISOString) later s' ∧
    (∀ i ∈ later, i.IsOwn) ∧ s'.AtRest

/-- **What was followed up for a call is out of date**, in every run. -/
theorem PageRun.behind (h : PageRun auctionId toISOString tr s) :
    (component auctionId toISOString).Behind (PageView.Concerned auctionId) (·.auction) s := by
  induction h with
  | start hs =>
    obtain ⟨connected, rfl⟩ := hs
    exact .start _
  | snoc _ hs ih =>
    refine ih.moves stirs ?_
    rcases next_cases hs with ⟨-, hpending, rfl⟩ | ⟨-, drawn, hpending, rfl⟩ |
      ⟨values, hvalues, rfl⟩
    · exact .draw _ hpending
    · exact .follow _ hpending ⟨_, rfl⟩
    · exact .other _ ⟨_, hvalues⟩

theorem PageRun.fits (h : PageRun auctionId toISOString tr s) :
    Fits auctionId s.ran s.values.view :=
  fun u hu => ⟨(PageRun.behind h).ran_le u hu, (PageRun.behind h).key_lt u hu⟩

theorem PageStep.concerned {i : PageTick} (h : PageStep auctionId toISOString s i s')
    (hforeign : ¬i.event.Foreign auctionId) (hs : s.values.view.Concerned auctionId) :
    s'.values.view.Concerned auctionId := by
  rcases next_cases h with ⟨-, -, rfl⟩ | ⟨-, drawn, -, rfl⟩ | ⟨values, hvalues, rfl⟩
  · exact hs
  · exact (keeps_runEffects _ _ i.now s.ran drawn s.values).concerned_iff.mpr hs
  · rw [view_of_outside hvalues]
    exact Event.concerned_viewed hforeign hs

theorem PageStep.concerned_of_history {later : List PageTick}
    (h : History (fun t => t = s) (PageStep auctionId toISOString) later s')
    (hforeign : ∀ i ∈ later, ¬i.event.Foreign auctionId)
    (hs : s.values.view.Concerned auctionId) : s'.values.view.Concerned auctionId := by
  induction h with
  | start heq => exact heq ▸ hs
  | snoc _ hstep ih =>
    exact PageStep.concerned hstep (hforeign _ (by simp))
      (ih fun i hi => hforeign i (List.mem_append_left _ hi))

/-! ### Rounds -/

/-- A round: the page is drawn, and follows up. -/
def PageTick.round (now : ℤ) : List PageTick := [⟨now, .draw⟩, ⟨now, .followUp⟩]

variable (auctionId toISOString) in
/-- Where a round leads. -/
def AuctionPage.afterRound (now : ℤ) (s : AuctionPage) : AuctionPage :=
  ⟨runEffects auctionId toISOString now s.ran s.values.view s.values, none, some s.values.view⟩

theorem PageStep.history {i : PageTick} (h : PageStep auctionId toISOString s i s') :
    History (fun t => t = s) (PageStep auctionId toISOString) [i] s' := by
  have hstart : History (fun t => t = s) (PageStep auctionId toISOString) [] s := .start rfl
  exact hstart.snoc h

/-- **The page can make a round** whenever nothing is left to follow up. -/
theorem AuctionPage.history_round (hp : s.pending = none) (now : ℤ) :
    History (fun t => t = s) (PageStep auctionId toISOString) (PageTick.round now)
      (s.afterRound auctionId toISOString now) := by
  have hdraw : PageStep auctionId toISOString s ⟨now, .draw⟩
      { s with pending := some s.values.view } := by
    rw [PageStep, next, hp]
  have hfollow : PageStep auctionId toISOString { s with pending := some s.values.view }
      ⟨now, .followUp⟩ (s.afterRound auctionId toISOString now) := rfl
  exact hdraw.history.append hfollow.history

/-- **The page can come to rest** if it is not concerned: what is drawn is followed up, and then at
most one more round is left to do. -/
theorem AuctionPage.settles_of_not (hcalm : ¬s.values.view.Concerned auctionId) :
    s.Settles auctionId toISOString := by
  have hround : ∀ {s : AuctionPage}, ¬s.values.view.Concerned auctionId →
      (s.afterRound auctionId toISOString 0).AtRest := fun hcalm =>
    ⟨rfl, congrArg some (view_runEffects_of_not hcalm).symm⟩
  have hown : ∀ i ∈ PageTick.round 0, i.IsOwn := by
    simp [PageTick.round, PageTick.IsOwn]
  rcases hp : s.pending with _ | drawn
  · exact ⟨_, _, AuctionPage.history_round hp 0, hown, hround hcalm⟩
  · have hfollow : PageStep auctionId toISOString s ⟨0, .followUp⟩
        ⟨runEffects auctionId toISOString 0 s.ran drawn s.values, none, some drawn⟩ := by
      rw [PageStep, next, hp]
      rfl
    refine ⟨_, _, hfollow.history.append (AuctionPage.history_round rfl 0), ?_, hround ?_⟩
    · intro i hi
      rcases List.mem_append.mp hi with hi | hi
      · exact Or.inr (by rw [List.mem_singleton.mp hi])
      · exact hown i hi
    · rwa [(keeps_runEffects _ _ 0 s.ran drawn s.values).concerned_iff]

/-- **How the page goes on.** -/
structure AuctionPage.Restless (auctionId : ℤ) (toISOString : ℤ → String) (s : AuctionPage) :
    Prop where
  /-- It can come to rest by itself if it is not concerned, and only then. -/
  settles_iff : s.Settles auctionId toISOString ↔ ¬s.values.view.Concerned auctionId
  /-- If it is concerned it stays so and is not at rest, now or later, as long as what it hears is
  about its own auction. -/
  onwards : s.values.view.Concerned auctionId → ∀ later s',
    History (fun t => t = s) (PageStep auctionId toISOString) later s' →
      (∀ i ∈ later, ¬i.event.Foreign auctionId) →
        s'.values.view.Concerned auctionId ∧ ¬s'.AtRest
  /-- The page of auction zero is never concerned. -/
  spared : auctionId = 0 → ¬s.values.view.Concerned auctionId

/-- **How the page listens to the socket.** -/
structure AuctionPage.Listens (auctionId : ℤ) (s : AuctionPage) : Prop where
  /-- It listens once it has followed up, if the number of the auction is a true value. -/
  subscribed_iff : s.values.subscribed = true ↔ s.ran.isSome = true ∧ auctionId ≠ 0
  /-- It shows whether it is connected. -/
  isConnected_eq : s.values.isConnected = (s.values.connected && s.values.subscribed)
  /-- It asks for the room of the auction once for every connection. -/
  sent_eq : s.values.sent =
    if s.values.isConnected then [("join:auction", auctionId)] else []
  /-- Before it listens it hears nothing. -/
  deaf : s.values.subscribed = false → s.values.view.latestBid.value = none ∧
    s.values.view.auctionClosed.value = none ∧ s.values.view.auctionSettled.value = none

/-- What the page has of the socket. -/
def PageValues.socket (p : PageValues) : Bool × Bool × Bool × List (String × ℤ) :=
  (p.subscribed, p.connected, p.isConnected, p.sent)

variable (auctionId toISOString) in
/-- **Of the effects only the first one is about the socket.** -/
theorem AuctionPage.socket_runEffects (now : ℤ) (ran : Option PageView) (drawn : PageView)
    (p : PageValues) : (runEffects auctionId toISOString now ran drawn p).socket =
      if ran.isNone = true then (subscribe auctionId p).socket else p.socket := by
  have hrunIf : ∀ (changed : Prop) [Decidable changed] (effect : PageValues → PageValues)
      (p : PageValues), (∀ p, (effect p).socket = p.socket) →
        (runIf changed effect p).socket = p.socket := by
    intro changed _ effect p heffect
    unfold runIf
    split
    · exact heffect p
    · rfl
  have hbid : ∀ p, (applyBid auctionId toISOString now drawn p).socket = p.socket := by
    intro p
    unfold applyBid
    split
    · split <;> rfl
    · rfl
  have hstatus : ∀ (status : String) (heard : Option ℤ) (p : PageValues),
      (applyStatus auctionId status heard drawn p).socket = p.socket := by
    intro status heard p
    unfold applyStatus
    split <;> rfl
  simp only [runEffects, runRequests, applyClosed, applySettled]
  rw [hrunIf _ _ _ (hstatus _ _), hrunIf _ _ _ (hstatus _ _), hrunIf _ _ _ hbid,
    hrunIf _ fetchBids _ fun _ => rfl, runIf]
  split <;> rfl

theorem AuctionPage.Listens.followUp (h : s.Listens auctionId) (drawn : PageView) (now : ℤ) :
    Listens auctionId
      ⟨runEffects auctionId toISOString now s.ran drawn s.values, none, some drawn⟩ := by
  obtain ⟨hsubscribed, hconnected, hsent, hdeaf⟩ := h
  have hsocket := socket_runEffects auctionId toISOString now s.ran drawn s.values
  have hkeeps := keeps_runEffects auctionId toISOString now s.ran drawn s.values
  generalize runEffects auctionId toISOString now s.ran drawn s.values = q at hsocket hkeeps
  have hq : q.subscribed = false → s.values.subscribed = false →
      q.view.latestBid.value = none ∧ q.view.auctionClosed.value = none ∧
        q.view.auctionSettled.value = none := by
    intro _ hno
    rw [hkeeps.latestBid_eq, hkeeps.auctionClosed_eq, hkeeps.auctionSettled_eq]
    exact hdeaf hno
  rcases hran : s.ran with _ | u
  · -- the first time: nothing was listened to before
    have hno : s.values.subscribed = false := by simpa [hran] using hsubscribed
    have hoff : s.values.isConnected = false := by simpa [hno] using hconnected
    have hempty : s.values.sent = [] := by simpa [hoff] using hsent
    -- auction 0 is no reason to subscribe
    by_cases hzero : auctionId = 0
    · simp [hran, subscribe, hzero, PageValues.socket, hno, hoff, hempty] at hsocket
      obtain ⟨h₁, h₂, h₃, h₄⟩ := hsocket
      exact ⟨by simp [h₁, hzero], by simp [h₁, h₃], by simp [h₃, h₄], fun h => hq h hno⟩
    · -- otherwise the room is joined at once, or when the connection is made
      rcases hon : s.values.connected with _ | _
      · simp [hran, subscribe, hzero, PageValues.socket, hoff, hempty, hon] at hsocket
        obtain ⟨h₁, h₂, h₃, h₄⟩ := hsocket
        exact ⟨by simp [h₁, hzero], by simp [h₂, h₃], by simp [h₃, h₄], fun h => hq h hno⟩
      · simp [hran, subscribe, hzero, PageValues.socket, hempty, hon, onConnect] at hsocket
        obtain ⟨h₁, h₂, h₃, h₄⟩ := hsocket
        exact ⟨by simp [h₁, hzero], by simp [h₁, h₂, h₃], by simp [h₃, h₄], fun h => hq h hno⟩
  · -- later on the effect of the subscription does not run again
    simp [hran, PageValues.socket] at hsocket
    obtain ⟨h₁, h₂, h₃, h₄⟩ := hsocket
    refine ⟨?_, by rw [h₁, h₂, h₃, hconnected], by rw [h₃, h₄, hsent], fun h => hq h (h₁ ▸ h)⟩
    rw [h₁, hsubscribed, hran]
    rfl

theorem AuctionPage.Listens.outside {event : Event} {values : PageValues}
    (h : s.Listens auctionId) (hout : outside auctionId s.values event = some values) :
    Listens auctionId { s with values := values } := by
  obtain ⟨hsubscribed, hconnected, hsent, hdeaf⟩ := h
  -- who hears something listens
  have hhear : ∀ {view : PageView}, hear s.values view = some values →
      Listens auctionId { s with values := values } := by
    intro view hheard
    unfold hear at hheard
    split at hheard
    · next hlistens =>
      obtain rfl := Option.some.inj hheard
      exact ⟨hsubscribed, hconnected, hsent,
        fun hno => absurd (hlistens.2.symm.trans hno) (by decide)⟩
    · cases hheard
  cases event with
  | draw => cases hout
  | followUp => cases hout
  | connect =>
    simp only [AuctionPage.outside] at hout
    split at hout
    · cases hout
    · next hoff =>
      have hidle : s.values.isConnected = false := by simpa [hoff] using hconnected
      obtain rfl := Option.some.inj hout
      rcases hsub : s.values.subscribed with _ | _
      · exact ⟨by simpa [hsub] using hsubscribed, by simp [hidle], by simp [hidle],
          fun _ => hdeaf hsub⟩
      · exact ⟨by simpa [hsub, onConnect] using hsubscribed, by simp [onConnect],
          by simp [onConnect], by simp [onConnect]⟩
  | disconnect =>
    simp only [AuctionPage.outside] at hout
    split at hout
    · next hon =>
      obtain rfl := Option.some.inj hout
      rcases hsub : s.values.subscribed with _ | _
      · have hidle : s.values.isConnected = false := by simpa [hsub] using hconnected
        exact ⟨by simpa [hsub] using hsubscribed, by simp [hidle], by simp [hidle],
          fun _ => hdeaf hsub⟩
      · exact ⟨by simpa [hsub] using hsubscribed, by simp, by simp, by simp⟩
    · cases hout
  | newBid data => exact hhear hout
  | closed data => exact hhear hout
  | settled data => exact hhear hout
  | cancelled => exact hhear hout
  | auctionAnswer data =>
    simp only [AuctionPage.outside] at hout
    split at hout
    · cases hout
    · obtain rfl := Option.some.inj hout
      exact ⟨hsubscribed, hconnected, hsent, hdeaf⟩
  | bidsAnswer data =>
    simp only [AuctionPage.outside] at hout
    split at hout
    · cases hout
    · obtain rfl := Option.some.inj hout
      exact ⟨hsubscribed, hconnected, hsent, hdeaf⟩
  | refresh =>
    obtain rfl := Option.some.inj hout
    exact ⟨hsubscribed, hconnected, hsent, hdeaf⟩

/-- **The page listens to its auction**, in any run. -/
theorem PageRun.listens (h : PageRun auctionId toISOString tr s) : s.Listens auctionId := by
  induction h with
  | start hs =>
    obtain ⟨connected, rfl⟩ := hs
    exact ⟨by simp [AuctionPage.initial], by simp [AuctionPage.initial], rfl,
      fun _ => ⟨rfl, rfl, rfl⟩⟩
  | snoc _ hs ih =>
    rcases next_cases hs with ⟨-, -, rfl⟩ | ⟨-, drawn, -, rfl⟩ | ⟨values, hvalues, rfl⟩
    · exact ⟨ih.subscribed_iff, ih.isConnected_eq, ih.sent_eq, ih.deaf⟩
    · exact ih.followUp drawn _
    · exact ih.outside hvalues

/-- **The page does not come to rest** while it is concerned, in any run. -/
theorem PageRun.restless (h : PageRun auctionId toISOString tr s) :
    s.Restless auctionId toISOString := by
  have honwards : s.values.view.Concerned auctionId → ∀ later s',
      History (fun t => t = s) (PageStep auctionId toISOString) later s' →
        (∀ i ∈ later, ¬i.event.Foreign auctionId) →
          s'.values.view.Concerned auctionId ∧ ¬s'.AtRest := by
    intro hs later s' hlater hforeign
    have hconcerned := PageStep.concerned_of_history hlater hforeign hs
    exact ⟨hconcerned, fun hrest =>
      (PageRun.behind (h.append hlater)).not_atRest hrest hconcerned⟩
  refine ⟨⟨?_, AuctionPage.settles_of_not⟩, honwards, ?_⟩
  · rintro ⟨later, s', hlater, hown, hrest⟩ hs
    refine (honwards hs later s' hlater fun i hi hforeign => ?_).2 hrest
    rcases hown i hi with hevent | hevent
    all_goals
      rw [hevent] at hforeign
      exact hforeign
  · rintro rfl ⟨-, hheard⟩
    have hlistens := PageRun.listens h
    obtain ⟨hbid, hclosed, hsettled⟩ := hlistens.deaf
      (Bool.eq_false_iff.mpr fun h => (hlistens.subscribed_iff.mp h).2 rfl)
    rw [hbid, hclosed, hsettled] at hheard
    rcases hheard with hnone | hnone | hnone <;> cases hnone

namespace Stage

/-- The page of an auction opens and has it, and a bid is placed. -/
def watching : List PageTick :=
  [⟨0, .draw⟩, ⟨0, .followUp⟩, ⟨1, .auctionAnswer (some ⟨7, "english", "active", none, "100", 60⟩)⟩,
    ⟨2, .bidsAnswer (some [])⟩, ⟨3, .draw⟩, ⟨3, .followUp⟩, ⟨4, .newBid ⟨7, "GB", "120", 4, true⟩⟩]

end Stage

/-- The theorem at this page: it cannot come to rest any more. -/
theorem restless_watching : ∃ (tr : List PageTick) (s : AuctionPage),
    PageRun 7 (fun _ => "") tr s ∧ tr.length = 7 ∧ ¬s.Settles 7 fun _ => "" := by
  have hplay : (History.replay (AuctionPage.play 7 fun _ => "") (.initial true)
      Stage.watching).map (fun r => (r.1.length, r.2.values.view.auction.value.isSome,
        r.2.values.view.latestBid.value.map (·.auctionId))) = some (7, true, some 7) := by
    decide +kernel
  obtain ⟨tr, s, hrun, hv⟩ := PageRun.exists_of_play true hplay
  simp only [Prod.mk.injEq] at hv
  exact ⟨tr, s, hrun, hv.1, fun hsettles =>
    (PageRun.restless hrun).settles_iff.mp hsettles ⟨hv.2.1, Or.inl hv.2.2⟩⟩

/-! ### What is shown in the end -/

/-- Rounds, at these times. -/
def PageTick.rounds (times : List ℤ) : List PageTick := times.flatMap PageTick.round

/-- **What rounds amount to**, from one state of the page to another. -/
structure AuctionPage.Repeated (auctionId : ℤ) (toISOString : ℤ → String) (times : List ℤ)
    (s s' : AuctionPage) : Prop where
  pending : s'.pending = none
  /-- What was heard stays. -/
  keeps : Keeps s.values.view s'.values.view
  /-- The auction, if the page has it, is overlaid with what is about it of the last bid, the last
  closing and the last settlement, whatever the server had answered. -/
  auction : s'.values.view.auction.value = if times = [] then s.values.view.auction.value
    else s.values.view.auction.value.map (overlay auctionId s.values.view)
  /-- The latest bid is put in the list once in every round, if it is about the auction and the page
  has that; otherwise nothing is. -/
  bids : s'.values.bids =
    times.reverse.flatMap (fun now => bidNews auctionId toISOString now s.values.view) ++
      s.values.bids

namespace AuctionPage

theorem Keeps.overlay_eq (h : Keeps v w) : overlay auctionId w = overlay auctionId v := by
  funext item
  rw [overlay, overlay, h.latestBid_eq, h.auctionClosed_eq, h.auctionSettled_eq]

/-- The bid that is put in the list depends on what was heard, and on the format of the auction. -/
theorem Keeps.bidNews_eq (h : Keeps v w)
    (hformat : w.auction.value.map (·.format) = v.auction.value.map (·.format)) :
    bidNews auctionId toISOString now w = bidNews auctionId toISOString now v := by
  unfold bidNews
  rw [h.latestBid_eq]
  rcases v.latestBid.value with _ | latestBid
  · rfl
  · rcases hv : v.auction.value with _ | auction
    · rw [hv, Option.map_none, Option.map_eq_none_iff] at hformat
      rw [hformat]
    · rw [hv, Option.map_some] at hformat
      obtain ⟨auction', hw, heq⟩ := Option.map_eq_some_iff.mp hformat
      rw [hw]
      dsimp only
      rw [bidItem, bidItem, heq]

theorem Repeated.format {times : List ℤ} (h : s.Repeated auctionId toISOString times s') :
    s'.values.view.auction.value.map (·.format) = s.values.view.auction.value.map (·.format) := by
  rw [h.auction]
  split
  · rfl
  · rw [Option.map_map]
    exact Option.map_congr fun item _ => format_overlay s.values.view item

/-- **One more round.** -/
theorem Repeated.round {times : List ℤ} (h : s.Repeated auctionId toISOString times s')
    (hrun : PageRun auctionId toISOString tr s') (now : ℤ) :
    s.Repeated auctionId toISOString (times ++ [now])
      (s'.afterRound auctionId toISOString now) := by
  obtain ⟨hauction, hbids⟩ := runEffects_of_ran toISOString now (PageRun.fits hrun)
  refine ⟨rfl, h.keeps.trans (keeps_runEffects _ _ now _ _ _), ?_, ?_⟩
  · refine hauction.trans ?_
    rw [if_neg (by simp), h.keeps.overlay_eq, h.auction]
    split
    · rfl
    · rw [Option.map_map]
      exact Option.map_congr fun item _ => overlay_overlay s.values.view item
  · refine hbids.trans ?_
    rw [h.keeps.bidNews_eq h.format, h.bids, List.reverse_append, List.flatMap_append,
      List.append_assoc]
    simp

end AuctionPage

/-- **Every round repeats the bid**: from any state of any run in which nothing is left to follow
up, the page can make rounds without end, each of which puts the latest bid in the list once more
and overlays the auction with what was heard, as far as that is about it. -/
theorem PageRun.repeated (h : PageRun auctionId toISOString tr s) (hp : s.pending = none)
    (times : List ℤ) : ∃ s', History (fun t => t = s) (PageStep auctionId toISOString)
      (PageTick.rounds times) s' ∧ s.Repeated auctionId toISOString times s' := by
  induction times using List.reverseRecOn with
  | nil => exact ⟨s, .start rfl, hp, .refl _, (if_pos rfl).symm, rfl⟩
  | append_singleton times now ih =>
    obtain ⟨s', hlater, hs'⟩ := ih
    refine ⟨s'.afterRound auctionId toISOString now, ?_, hs'.round (h.append hlater) now⟩
    rw [PageTick.rounds, List.flatMap_append, List.flatMap_singleton]
    exact hlater.append (AuctionPage.history_round hs'.pending now)

/-- The theorem at this page, after three rounds: the one bid is listed three times. -/
theorem repeated_watching : ∃ (tr : List PageTick) (s s' : AuctionPage),
    PageRun 7 (fun _ => "") tr s ∧ s.pending = none ∧ s.values.bids = [] ∧
      s.Repeated 7 (fun _ => "") [5, 6, 7] s' ∧
        s'.values.bids.map (fun b => (b.id, b.bidder, b.amount)) =
          [(7, "GB", "120"), (6, "GB", "120"), (5, "GB", "120")] := by
  have hplay : (History.replay (AuctionPage.play 7 fun _ => "") (.initial true)
      Stage.watching).map (fun r => (r.2.pending.isNone, r.2.values.bids,
        [7, 6, 5].flatMap fun now => (bidNews 7 (fun _ => "") now r.2.values.view).map
          fun b => (b.id, b.bidder, b.amount))) =
      some (true, [], [(7, "GB", "120"), (6, "GB", "120"), (5, "GB", "120")]) := by
    decide +kernel
  obtain ⟨tr, s, hrun, hv⟩ := PageRun.exists_of_play true hplay
  simp only [Prod.mk.injEq, Option.isNone_iff_eq_none] at hv
  obtain ⟨hpending, hbids, hnews⟩ := hv
  obtain ⟨s', -, hs'⟩ := PageRun.repeated hrun hpending [5, 6, 7]
  refine ⟨tr, s, s', hrun, hpending, hbids, hs', ?_⟩
  rw [hs'.bids, hbids, List.append_nil, List.map_flatMap]
  exact hnews

end UrithiBidz
