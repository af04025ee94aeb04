import UrithiBidz.Indexer.Poll
import UrithiBidz.Server.Socket

/-!
# Broadcasts

What the indexer has processed is pushed to the clients at once (the callback of `index.ts`, and the
functions `broadcast…` of `ws/socket_server.ts`). A new auction is announced to all of them, and
whatever else happens to an auction to its room; that a bidder was refunded is announced to the room
of the bidder as well.

The callback reads the payload again, by names of its own and with defaults of its own, and nobody
waits for it: what it throws is not caught. So `UrithiBidz.onEvent` is what it sends, and whether
it throws then. It does if a field is read of nothing, if a value cannot be spelled, and if a
message cannot be written as JSON.

`UrithiBidz.LiveServer` is the sockets next to the tables. Its events are those of the clients and
those of the ledger, in any order, and each has its recipients (`UrithiBidz.LiveTick.Receives`).
-/

namespace UrithiBidz

/-! ### Messages -/

/-- For whom a message is. -/
inductive Audience
  | everybody
  | room (room : String)
  deriving DecidableEq

/-- A message to the clients: for whom, the name of the event, and the payload. -/
structure Broadcast where
  audience : Audience
  event : String
  payload : Native

/-- What has been sent, and what was thrown then. -/
structure Announcement where
  sent : List Broadcast
  threw : Option String

namespace Announcement

/-- Nothing to announce. -/
def silent : Announcement := ⟨[], none⟩

/-- Nothing is sent, for an error. -/
def failed (error : String) : Announcement := ⟨[], some error⟩

/-- One thing after the other, unless the first has thrown. -/
def andThen (a b : Announcement) : Announcement :=
  match a.threw with
  | some _ => a
  | none => ⟨a.sent ++ b.sent, b.threw⟩

end Announcement

/-- `emit`. A message that cannot be written as JSON is not sent. -/
def Broadcast.emit (b : Broadcast) : Announcement :=
  if b.payload.jsonable then ⟨[b], none⟩
  else .failed "Do not know how to serialize a BigInt"

/-- A message to the room of an auction, whose id is in the payload. -/
def toAuction (auctionId : ℤ) (event : String) (fields : List (String × Native)) : Broadcast :=
  ⟨.room (auctionRoom (toString auctionId)), event,
    .object (("auctionId", .number auctionId) :: fields)⟩

def broadcastAuctionCreated (auction : Native) : Announcement :=
  (Broadcast.mk .everybody "auction:created" auction).emit

def broadcastNewBid (auctionId : ℤ) (bid : List (String × Native)) : Announcement :=
  (toAuction auctionId "auction:new_bid" bid).emit

/-- A refund is announced twice. The name of the second room is spelled between the messages. -/
def broadcastBidRefunded (auctionId : ℤ) (bidder : Native) (amount : String) : Announcement :=
  (toAuction auctionId "auction:bid_refunded"
    [("bidder", bidder), ("amount", .string amount)]).emit.andThen <|
  match bidder.template with
  | some text => (Broadcast.mk (.room (bidderRoom text)) "bidder:refunded"
      (.object [("auctionId", .number auctionId), ("amount", .string amount)])).emit
  | none => .failed "Cannot convert object to primitive value"

def broadcastAuctionClosed (auctionId : ℤ) (winner : Native) (finalPrice : String)
    (format : Native) : Announcement :=
  (toAuction auctionId "auction:closed"
    [("winner", winner), ("finalPrice", .string finalPrice), ("format", format)]).emit

def broadcastAuctionSettled (auctionId : ℤ) (settlement : List (String × Native)) : Announcement :=
  (toAuction auctionId "auction:settled" settlement).emit

def broadcastAuctionCancelled (auctionId : ℤ) : Announcement :=
  (toAuction auctionId "auction:cancelled" []).emit

def broadcastAttestationRecorded (auctionId : ℤ) (custodian : Native) : Announcement :=
  (toAuction auctionId "auction:attested" [("custodian", custodian)]).emit

/-! ### The callback -/

/-- `String(data.name || default)`, which throws for a value that cannot be spelled. -/
def spellOr (data : Native) (name default : String) : Except String String := do
  unwrapOr "Cannot convert object to primitive value"
    (← fieldOr data name (.string default)).template

/-- What is announced of an event, by its type, once the payload has been read. -/
def announce (eventType : Native) (auctionId : ℤ) (data : Native) : Except String Announcement :=
  match eventType with
  | .string "auction_created" => do
    return broadcastAuctionCreated (.object
      [("id", .number auctionId),
        ("seller", ← data.field "seller"),
        ("format", ← data.field "format"),
        ("reserve_price", .string (← spellOr data "reserve_price" "0")),
        ("end_time", ← data.field "end_time"),
        ("metadata_uri", ← data.field "metadata_uri")])
  | .string "bid_placed" => do
    return broadcastNewBid auctionId
      [("bidder", ← data.field "bidder"),
        ("amount", .string (← spellOr data "amount" "0")),
        ("timestamp", ← data.field "timestamp"),
        ("is_winning", .bool true)]
  | .string "bid_refunded" => do
    return broadcastBidRefunded auctionId (← data.field "bidder") (← spellOr data "amount" "0")
  | .string "auction_closed" => do
    return broadcastAuctionClosed auctionId (← data.field "winner")
      (← spellOr data "winning_bid" "0") (← data.field "format")
  | .string "auction_settled" => do
    return broadcastAuctionSettled auctionId
      [("seller_proceeds", .string (← spellOr data "seller_proceeds" "0")),
        ("royalty_amount", .string (← spellOr data "royalty_amount" "0")),
        ("platform_fee", .string (← spellOr data "platform_fee" "0"))]
  | .string "auction_cancelled" => return broadcastAuctionCancelled auctionId
  | .string "attestation_recorded" => do
    return broadcastAttestationRecorded auctionId (← data.field "custodian")
  | _ => return .silent

/-- **What the callback does with an event**: what it sends, and what it throws. -/
def onEvent (eventType : Native) (auctionId : ℤ) (data : Native) : Announcement :=
  match announce eventType auctionId data with
  | .ok announcement => announcement
  | .error e => .failed e

/-- What is announced of an event that has been processed. -/
def SorobanEvent.announced (event : SorobanEvent) : Announcement :=
  match event.topics with
  | eventType :: auctionId :: _ =>
    match auctionIdOf auctionId with
    | some auctionId => onEvent eventType auctionId event.data
    | none => .silent
  | _ => .silent

/-! ### What is announced -/

theorem mem_sent_emit {b c : Broadcast} (h : b ∈ c.emit.sent) : b = c := by
  unfold Broadcast.emit at h
  split at h
  · exact List.mem_singleton.mp h
  · exact absurd h List.not_mem_nil

theorem Announcement.mem_sent_andThen {b : Broadcast} {a a' : Announcement}
    (h : b ∈ (a.andThen a').sent) : b ∈ a.sent ∨ b ∈ a'.sent := by
  unfold andThen at h
  split at h
  · exact Or.inl h
  · exact List.mem_append.mp h

variable {eventType data : Native} {id : ℤ} {a : Announcement} {b : Broadcast}

theorem mem_sent_onEvent (h : b ∈ (onEvent eventType id data).sent) :
    ∃ a, announce eventType id data = .ok a ∧ b ∈ a.sent := by
  unfold onEvent at h
  split at h
  · next a ha => exact ⟨a, ha, h⟩
  · exact absurd h List.not_mem_nil

/-- **For whom the messages are**: a new auction is announced to everybody, a refund to the bidder,
and all else, and the refund too, to those who follow the auction. -/
theorem audience_of_announce (h : announce eventType id data = .ok a) (hb : b ∈ a.sent) :
    (eventType = .string "auction_created" ∧ b.audience = .everybody) ∨
      b.audience = .room (auctionRoom (toString id)) ∨
        (eventType = .string "bid_refunded" ∧ ∃ bidder address,
          data.field "bidder" = .ok bidder ∧ bidder.template = some address ∧
            b.audience = .room (bidderRoom address)) := by
  unfold announce at h
  split at h <;> simp only [Except.bind_eq_ok_iff, Except.pure_eq_ok_iff] at h
  · obtain ⟨seller, -, format, -, price, -, ending, -, uri, -, rfl⟩ := h
    rw [mem_sent_emit hb]
    exact Or.inl ⟨rfl, rfl⟩
  · obtain ⟨bidder, -, amount, -, time, -, rfl⟩ := h
    rw [mem_sent_emit hb]
    exact Or.inr (Or.inl rfl)
  · obtain ⟨bidder, hbidder, amount, -, rfl⟩ := h
    -- a refund is told twice: in the room of the auction and in that of the bidder
    rcases Announcement.mem_sent_andThen hb with hb | hb
    · rw [mem_sent_emit hb]
      exact Or.inr (Or.inl rfl)
    · split at hb
      · next address haddress =>
        rw [mem_sent_emit hb]
        exact Or.inr (Or.inr ⟨rfl, bidder, address, hbidder, haddress, rfl⟩)
      · exact absurd hb List.not_mem_nil
  · obtain ⟨winner, -, price, -, format, -, rfl⟩ := h
    rw [mem_sent_emit hb]
    exact Or.inr (Or.inl rfl)
  · obtain ⟨proceeds, -, royalty, -, fee, -, rfl⟩ := h
    rw [mem_sent_emit hb]
    exact Or.inr (Or.inl rfl)
  · subst h
    rw [mem_sent_emit hb]
    exact Or.inr (Or.inl rfl)
  · obtain ⟨custodian, -, rfl⟩ := h
    rw [mem_sent_emit hb]
    exact Or.inr (Or.inl rfl)
  · subst h
    exact absurd hb List.not_mem_nil

/-! ### Sockets and tables -/

variable {Socket : Type}

variable (Socket) in
/-- The sockets, and the tables of the indexer. -/
structure LiveServer where
  server : SocketServer Socket
  db : Database

variable (Socket) in
/-- What happens next: something to the sockets, or an event of the ledger is processed, by a
database that may fail. -/
inductive LiveEvent
  | socket (event : ServerEvent Socket)
  | indexed (event : SorobanEvent) (failure : Option ℕ)

/-- Whether a message for somebody reaches a socket. -/
def SocketServer.reaches (s : SocketServer Socket) (audience : Audience) (socket : Socket) : Bool :=
  s.connected socket && match audience with
    | .everybody => true
    | .room room => s.rooms socket room

variable (Socket) in
/-- An event, with its time, the state before it, what is sent back to the client that it comes
from, and what is announced to all. -/
structure LiveTick where
  before : LiveServer Socket
  now : ℤ
  event : LiveEvent Socket
  replies : List Reply
  announcement : Announcement

/-- **A client gets a message** that is announced. -/
def LiveTick.Receives (i : LiveTick Socket) (socket : Socket) (b : Broadcast) : Prop :=
  b ∈ i.announcement.sent ∧ i.before.server.reaches b.audience socket = true

/-- What is announced: nothing, unless an event of the ledger has been processed. -/
def LiveServer.announces (now : ℤ) (s : LiveServer Socket) : LiveEvent Socket → Announcement
  | .socket _ => .silent
  | .indexed event failure =>
    if (s.db.process now failure event).2 then event.announced else .silent

variable [DecidableEq Socket]

/-- **What an event does**, what is sent back, and what is announced. -/
def LiveServer.next (verify : Native → String → Native → Bool) (now : ℤ) (s : LiveServer Socket) :
    LiveEvent Socket → Option (LiveServer Socket × List Reply × Announcement)
  | .socket event =>
    (s.server.next verify now event).map fun (server, replies) =>
      ({ s with server := server }, replies, s.announces now (.socket event))
  | .indexed event failure =>
    some ({ s with db := (s.db.process now failure event).1 }, [],
      s.announces now (.indexed event failure))

/-- **The life of a server**, with the events of its clients and of the ledger in any order. -/
abbrev LiveRun (verify : Native → String → Native → Bool) :
    List (LiveTick Socket) → LiveServer Socket → Prop :=
  History (fun s => ∃ clock, s.server = .initial clock) fun s i s' =>
    i.before = s ∧ s.server.clock ≤ i.now ∧
      s.next verify i.now i.event = some (s', i.replies, i.announcement)

/-- Let an event happen, if it can happen now. -/
def LiveServer.play (verify : Native → String → Native → Bool) (s : LiveServer Socket)
    (event : ℤ × LiveEvent Socket) : Option (LiveTick Socket × LiveServer Socket) :=
  if s.server.clock ≤ event.1 then
    (s.next verify event.1 event.2).map fun (s', replies, announcement) =>
      (⟨s, event.1, event.2, replies, announcement⟩, s')
  else none

variable {verify : Native → String → Native → Bool} {s s' : LiveServer Socket}
  {i : LiveTick Socket}

theorem LiveServer.play_eq_some {event : ℤ × LiveEvent Socket}
    (h : s.play verify event = some (i, s')) : (i.before = s ∧ s.server.clock ≤ i.now ∧
      s.next verify i.now i.event = some (s', i.replies, i.announcement)) ∧
        (i.now, i.event) = event := by
  unfold play at h
  split at h
  · next hclock =>
    obtain ⟨⟨s₁, replies, announcement⟩, hnext, heq⟩ := Option.map_eq_some_iff.mp h
    cases heq
    exact ⟨⟨rfl, hclock, hnext⟩, rfl⟩
  · cases h

/-- **Runs by evaluation**: whatever is read off a script of events is read off a run. -/
theorem LiveRun.exists_of_play {γ : Type} (clock : ℤ) (db : Database)
    {script : List (ℤ × LiveEvent Socket)} {f : List (LiveTick Socket) × LiveServer Socket → γ}
    {v : γ} (h : (History.replay (LiveServer.play verify) ⟨.initial clock, db⟩ script).map f =
      some v) : ∃ tr s, LiveRun verify tr s ∧ tr.map (fun i => (i.now, i.event)) = script ∧
        f (tr, s) = v := by
  obtain ⟨⟨tr, s⟩, hreplay, hv⟩ := Option.map_eq_some_iff.mp h
  have hstart : LiveRun verify [] (⟨.initial clock, db⟩ : LiveServer Socket) := .start ⟨clock, rfl⟩
  have hstep : ∀ (s : LiveServer Socket) event i s', s.play verify event = some (i, s') →
      (i.before = s ∧ s.server.clock ≤ i.now ∧
        s.next verify i.now i.event = some (s', i.replies, i.announcement)) ∧
          (i.now, i.event) = event := fun _ _ _ _ hplay => LiveServer.play_eq_some hplay
  exact ⟨tr, s,
    History.of_replay (fun s event i s' hplay => (hstep s event i s' hplay).1) hstart hreplay,
    History.map_of_replay (fun s event i s' hplay => (hstep s event i s' hplay).2) hreplay, hv⟩

/-- **What is announced** in a step. -/
theorem LiveServer.announcement_of_next
    (h : s.next verify i.now i.event = some (s', i.replies, i.announcement)) :
    i.announcement = s.announces i.now i.event := by
  rcases hevent : i.event with event | ⟨event, failure⟩
  · rw [hevent] at h
    obtain ⟨r, -, heq⟩ := Option.map_eq_some_iff.mp h
    exact (Prod.mk.inj (Prod.mk.inj heq).2).2.symm
  · rw [hevent] at h
    exact (Prod.mk.inj (Prod.mk.inj (Option.some.inj h)).2).2.symm

/-- **A message** is what the callback sends of an event that has been processed. -/
theorem LiveServer.exists_of_mem_sent {b : Broadcast}
    (h : s.next verify i.now i.event = some (s', i.replies, i.announcement))
    (hb : b ∈ i.announcement.sent) :
    ∃ event failure eventType second rest id, i.event = .indexed event failure ∧
      (s.db.process i.now failure event).2 = true ∧ event.topics = eventType :: second :: rest ∧
        auctionIdOf second = some id ∧ b ∈ (onEvent eventType id event.data).sent := by
  rw [announcement_of_next h] at hb
  rcases hevent : i.event with event | ⟨event, failure⟩
  · rw [hevent] at hb
    exact absurd hb List.not_mem_nil
  · rw [hevent, announces] at hb
    split at hb
    · next hcompleted =>
      unfold SorobanEvent.announced at hb
      split at hb
      · next eventType second rest htopics =>
        split at hb
        · next id hid =>
          exact ⟨event, failure, eventType, second, rest, id, rfl, hcompleted, htopics, hid, hb⟩
        · exact absurd hb List.not_mem_nil
      · exact absurd hb List.not_mem_nil
    · exact absurd hb List.not_mem_nil

end UrithiBidz
