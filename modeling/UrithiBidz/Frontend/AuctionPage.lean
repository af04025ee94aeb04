import UrithiBidz.Library.Reactive

/-!
# The page of an auction

The page of an auction (`app/auctions/[id]/page.tsx`) shows the auction and its bids as the server
gave them, and keeps them up to date with what it hears over a socket (`useAuctionSocket` of
`hooks/useWebSocket.ts`). It is a component: each of its effects names the values it depends on, and
is run once the page is drawn and one of them has been replaced.

`UrithiBidz.AuctionPage.next` is what an event does to the page. The effects are run in the order in
which the page has them, from what was drawn, on the values as they are by then
(`UrithiBidz.AuctionPage.runEffects`).
-/

namespace UrithiBidz

/-! ### What the page hears -/

/-- `BidEvent`: a bid was placed. -/
structure BidEvent where
  auctionId : ℤ
  bidder : String
  amount : String
  timestamp : ℤ
  isWinning : Bool
  deriving DecidableEq

/-- `AuctionClosedEvent`: an auction was closed. -/
structure AuctionClosedEvent where
  auctionId : ℤ
  winner : String
  winningBid : String
  format : String
  deriving DecidableEq

/-- `AuctionSettledEvent`: an auction was settled. -/
structure AuctionSettledEvent where
  auctionId : ℤ
  sellerProceeds : String
  royaltyAmount : String
  platformFee : String
  deriving DecidableEq

/-! ### What the page shows -/

/-- `AuctionItem`: what the page has of an auction, with the texts as they were sent. -/
structure AuctionItem where
  id : ℤ
  format : String
  status : String
  highestBidder : Option String
  highestBid : String
  endTime : ℤ
  deriving DecidableEq

/-- `BidItem`: a bid in the list of the page. -/
structure BidItem where
  id : ℤ
  auctionId : ℤ
  bidder : String
  amount : String
  format : String
  timestamp : ℤ
  isWinning : Bool
  refunded : Bool
  createdAt : String
  deriving DecidableEq

/-- What the effects of the page depend on. -/
structure PageView where
  auction : Cell (Option AuctionItem)
  latestBid : Cell (Option BidEvent)
  auctionClosed : Cell (Option AuctionClosedEvent)
  auctionSettled : Cell (Option AuctionSettledEvent)

/-- The values of the page, and what it waits for: how many requests for the auction and for its
bids are not answered. Of the socket there is whether it is connected, and what the page has sent
since it is. -/
structure PageValues where
  view : PageView
  bids : List BidItem
  loading : Bool
  auctionRequests : ℕ
  bidsRequests : ℕ
  subscribed : Bool
  connected : Bool
  isConnected : Bool
  sent : List (String × ℤ)

/-- The page, as a component. -/
abbrev AuctionPage := Standing PageValues PageView

namespace AuctionPage

/-- The page before it is drawn, when the socket may be connected or not. -/
def initial (connected : Bool) : AuctionPage where
  values :=
    { view := ⟨.first none, .first none, .first none, .first none⟩
      bids := []
      loading := true
      auctionRequests := 0
      bidsRequests := 0
      subscribed := false
      connected := connected
      isConnected := false
      sent := [] }
  pending := none
  ran := none

variable (auctionId : ℤ) (toISOString : ℤ → String)

/-! ### Effects -/

/-- `onConnect` -/
def onConnect (p : PageValues) : PageValues :=
  { p with isConnected := true, sent := p.sent ++ [("join:auction", auctionId)] }

/-- The effect of `useAuctionSocket`: the socket is listened to. There is no auction whose number
is no true value. -/
def subscribe (p : PageValues) : PageValues :=
  if auctionId = 0 then p
  else
    let p := { p with subscribed := true }
    if p.connected then onConnect auctionId p else p

/-- `fetchAuction`, up to the answer. -/
def fetchAuction (p : PageValues) : PageValues :=
  { p with auctionRequests := p.auctionRequests + 1 }

/-- `getBidsForAuction`, up to the answer. -/
def fetchBids (p : PageValues) : PageValues :=
  { p with bidsRequests := p.bidsRequests + 1 }

/-- A bid as it is put in the list. -/
def bidItem (now : ℤ) (auction : AuctionItem) (latestBid : BidEvent) : BidItem where
  id := now
  auctionId := auctionId
  bidder := latestBid.bidder
  amount := latestBid.amount
  format := auction.format
  timestamp := latestBid.timestamp
  isWinning := true
  refunded := false
  createdAt := toISOString now

/-- An auction with its latest bid. -/
def withBid (latestBid : BidEvent) (prev : AuctionItem) : AuctionItem :=
  { prev with highestBid := latestBid.amount, highestBidder := some latestBid.bidder }

/-- An auction with another status. -/
def withStatus (status : String) (prev : AuctionItem) : AuctionItem :=
  { prev with status := status }

/-- `setAuction(prev => prev ? … : prev)` -/
def setAuction (f : AuctionItem → AuctionItem) (p : PageValues) : PageValues :=
  { p with view := { p.view with auction := p.view.auction.amend f } }

/-- The effect that applies the latest bid. -/
def applyBid (now : ℤ) (drawn : PageView) (p : PageValues) : PageValues :=
  match drawn.latestBid.value, drawn.auction.value with
  | some latestBid, some auction =>
    if latestBid.auctionId = auctionId then
      let p := setAuction (withBid latestBid) p
      { p with bids := bidItem auctionId toISOString now auction latestBid :: p.bids }
    else p
  | _, _ => p

/-- The effect that applies a change of the status, for what was heard of the auction with a
number. -/
def applyStatus (status : String) (heard : Option ℤ) (drawn : PageView) (p : PageValues) :
    PageValues :=
  if heard = some auctionId ∧ drawn.auction.value.isSome then setAuction (withStatus status) p
  else p

/-- The effect that applies that the auction is closed. -/
def applyClosed (drawn : PageView) : PageValues → PageValues :=
  applyStatus auctionId "closed" (drawn.auctionClosed.value.map (·.auctionId)) drawn

/-- The effect that applies that the auction is settled. -/
def applySettled (drawn : PageView) : PageValues → PageValues :=
  applyStatus auctionId "settled" (drawn.auctionSettled.value.map (·.auctionId)) drawn

/-- An effect is run if one of the values it depends on has been replaced. -/
def runIf (changed : Prop) [Decidable changed] (effect : PageValues → PageValues)
    (p : PageValues) : PageValues :=
  if changed then effect p else p

/-- The effects that ask for something. -/
def runRequests (ran : Option PageView) (drawn : PageView) (p : PageValues) : PageValues :=
  let p := runIf (ran.isNone = true) (fun p => fetchAuction (subscribe auctionId p)) p
  runIf (drawn.latestBid.Changed (ran.map (·.latestBid))) fetchBids p

/-- **The effects of the page**, in their order. -/
def runEffects (now : ℤ) (ran : Option PageView) (drawn : PageView) (p : PageValues) :
    PageValues :=
  let p := runRequests auctionId ran drawn p
  let p := runIf (drawn.latestBid.Changed (ran.map (·.latestBid)) ∨
    drawn.auction.Changed (ran.map (·.auction))) (applyBid auctionId toISOString now drawn) p
  let p := runIf (drawn.auctionClosed.Changed (ran.map (·.auctionClosed)) ∨
    drawn.auction.Changed (ran.map (·.auction))) (applyClosed auctionId drawn) p
  runIf (drawn.auctionSettled.Changed (ran.map (·.auctionSettled)) ∨
    drawn.auction.Changed (ran.map (·.auction))) (applySettled auctionId drawn) p

/-! ### Events -/

/-- What can happen to the page: it is drawn, it follows up, the socket connects, disconnects or
has something to tell, a request is answered, with data or without, or the auction is asked for once
more after the user has done something. -/
inductive Event
  | draw
  | followUp
  | connect
  | disconnect
  | newBid (data : BidEvent)
  | closed (data : AuctionClosedEvent)
  | settled (data : AuctionSettledEvent)
  | cancelled
  | auctionAnswer (data : Option AuctionItem)
  | bidsAnswer (data : Option (List BidItem))
  | refresh

/-- What is left to do with an answer: `fetchAuction`. -/
def onAuctionAnswer (data : Option AuctionItem) (p : PageValues) : PageValues :=
  { p with
    view :=
      { p.view with auction := data.elim p.view.auction fun item => p.view.auction.set (some item) }
    loading := false
    auctionRequests := p.auctionRequests - 1 }

/-- What is left to do with the answer to `getBidsForAuction`. -/
def onBidsAnswer (data : Option (List BidItem)) (p : PageValues) : PageValues :=
  { p with bids := data.getD p.bids, bidsRequests := p.bidsRequests - 1 }

/-- What the socket tells is heard if the page listens to it. -/
def hear (p : PageValues) (view : PageView) : Option PageValues :=
  if p.connected ∧ p.subscribed then some { p with view := view } else none

/-- **What happens to the values** from outside, if it can happen. -/
def outside (p : PageValues) : Event → Option PageValues
  | .draw => none
  | .followUp => none
  | .connect =>
    if p.connected then none
    else
      let p := { p with connected := true, sent := [] }
      some (if p.subscribed then onConnect auctionId p else p)
  | .disconnect =>
    if p.connected then
      let p := { p with connected := false, sent := [] }
      some (if p.subscribed then { p with isConnected := false } else p)
    else none
  | .newBid data => hear p { p.view with latestBid := p.view.latestBid.set (some data) }
  | .closed data => hear p { p.view with auctionClosed := p.view.auctionClosed.set (some data) }
  | .settled data => hear p { p.view with auctionSettled := p.view.auctionSettled.set (some data) }
  | .cancelled =>
    hear p { p.view with
      auctionClosed := p.view.auctionClosed.set (some ⟨auctionId, "", "0", "english"⟩) }
  | .auctionAnswer data => if p.auctionRequests = 0 then none else some (onAuctionAnswer data p)
  | .bidsAnswer data => if p.bidsRequests = 0 then none else some (onBidsAnswer data p)
  | .refresh => some (fetchAuction p)

/-- **What an event does to the page**, if it can happen. -/
def next (now : ℤ) (s : AuctionPage) : Event → Option AuctionPage
  | .draw =>
    match s.pending with
    | none => some { s with pending := some s.values.view }
    | some _ => none
  | .followUp =>
    s.pending.map fun drawn =>
      ⟨runEffects auctionId toISOString now s.ran drawn s.values, none, some drawn⟩
  | event => (outside auctionId s.values event).map fun values => { s with values := values }

end AuctionPage

/-! ### Runs -/

/-- An event, and when it happens. -/
structure PageTick where
  now : ℤ
  event : AuctionPage.Event

/-- A step of a page. -/
abbrev PageStep (auctionId : ℤ) (toISOString : ℤ → String) (s : AuctionPage) (i : PageTick)
    (s' : AuctionPage) : Prop :=
  AuctionPage.next auctionId toISOString i.now s i.event = some s'

/-- **The runs of a page.** -/
abbrev PageRun (auctionId : ℤ) (toISOString : ℤ → String) : List PageTick → AuctionPage → Prop :=
  History (fun s => ∃ connected, s = .initial connected) (PageStep auctionId toISOString)

/-- Let an event happen to the page. -/
def AuctionPage.play (auctionId : ℤ) (toISOString : ℤ → String) (s : AuctionPage) (i : PageTick) :
    Option (PageTick × AuctionPage) :=
  (next auctionId toISOString i.now s i.event).map (i, ·)

/-- **Runs by evaluation.** -/
theorem PageRun.exists_of_play {γ : Type} {auctionId : ℤ} {toISOString : ℤ → String}
    (connected : Bool) {script : List PageTick} {f : List PageTick × AuctionPage → γ} {v : γ}
    (h : (History.replay (AuctionPage.play auctionId toISOString) (.initial connected)
      script).map f = some v) : ∃ tr s, PageRun auctionId toISOString tr s ∧ f (tr, s) = v := by
  refine History.exists_of_replay (fun s i i' s' hplay => ?_) ⟨connected, rfl⟩ h
  obtain ⟨t, hnext, heq⟩ := Option.map_eq_some_iff.mp hplay
  cases heq
  exact hnext

end UrithiBidz
