import Mathlib
import UrithiBidz.Guarantees.PrivateRooms
import UrithiBidz.Server.Broadcast

/-!
# Delivery

Who gets what is pushed. A socket is in a room exactly if it has joined it, and has neither left it
nor disconnected since (`UrithiBidz.SocketRun.rooms_iff`), whatever else the clients do and whatever
comes from the ledger in between. So a message of an auction reaches those who follow this auction
and nobody else (`UrithiBidz.LiveRun.exactDelivery`), and that a bidder was refunded reaches the
room of the bidder only for sockets that have proved to hold the key
(`UrithiBidz.LiveRun.refunds_private`).

The sockets of a live server are the life of a server of sockets, since the ledger does not touch
them (`UrithiBidz.LiveRun.socketRun`), and so all that is known of those is known of these.
-/

namespace UrithiBidz

variable {Socket : Type} {verify : Native → String → Native → Bool}

/-! ### Who is in a room -/

/-- The room that an event asks to enter. -/
def SocketEvent.entrance : SocketEvent → Option String
  | .joinAuction auctionId => auctionId.template.map auctionRoom
  | .joinBidder address => address.template.map bidderRoom
  | _ => none

/-- The room that an event goes out of. -/
def SocketEvent.exit : SocketEvent → Option String
  | .leaveAuction auctionId => auctionId.template.map auctionRoom
  | .leaveBidder address => address.template.map bidderRoom
  | _ => none

/-- **The socket enters a room.** For that of a bidder it has to have proved to hold the key. -/
def SocketTick.Joins (i : SocketTick Socket) (socket : Socket) (room : String) : Prop :=
  ∃ event, i.event = .socket socket event ∧ event.entrance = some room ∧
    ∀ address, event = .joinBidder address → i.before.authenticatedSockets socket address = true

/-- **The socket goes out of a room**, or away. -/
def SocketTick.Leaves (i : SocketTick Socket) (socket : Socket) (room : String) : Prop :=
  ∃ event, i.event = .socket socket event ∧ (event = .disconnect ∨ event.exit = some room)

section Rooms

variable [DecidableEq Socket] {tr : List (SocketTick Socket)} {s s' : SocketServer Socket}
  {i : SocketTick Socket} {socket socket' : Socket} {room room' : String}

theorem rooms_join_iff : (s.join socket' room').rooms socket room = true ↔
    (socket = socket' ∧ room' = room) ∨ s.rooms socket room = true := by
  by_cases hsocket : socket = socket'
  · subst hsocket
    simp [SocketServer.join, @eq_comm _ room]
  · simp [SocketServer.join, hsocket]

theorem rooms_leave_iff : (s.leave socket' room').rooms socket room = true ↔
    s.rooms socket room = true ∧ ¬(socket = socket' ∧ room' = room) := by
  by_cases hsocket : socket = socket'
  · subst hsocket
    simp [SocketServer.leave, and_comm, @eq_comm _ room]
  · simp [SocketServer.leave, hsocket]

/-- **What a handler does to the rooms.** -/
theorem rooms_handle_iff (verify : Native → String → Native → Bool) (now : ℤ)
    (s : SocketServer Socket) (event : SocketEvent) :
    (s.handle verify now socket' event).1.rooms socket room = true ↔
      (socket = socket' ∧ event.entrance = some room ∧
        ∀ address, event = .joinBidder address → s.authenticatedSockets socket' address = true) ∨
      (s.rooms socket room = true ∧
        ¬(socket = socket' ∧ (event = .disconnect ∨ event.exit = some room))) := by
  rcases event with _ | ⟨payload, uuid⟩ | payload | auctionId | auctionId | address | address | _
  case connection => simp [SocketServer.handle, SocketEvent.entrance, SocketEvent.exit]
  case requestNonce =>
    simp only [SocketServer.handle]
    split <;> simp [SocketEvent.entrance, SocketEvent.exit]
  case authenticate =>
    simp only [SocketServer.handle]
    split
    · simp [SocketEvent.entrance, SocketEvent.exit]
    · split <;> simp [SocketEvent.entrance, SocketEvent.exit]
  -- an id without a text throws before the room is joined
  case joinAuction =>
    rcases htext : auctionId.template with _ | text
    · simp [SocketServer.handle, SocketEvent.entrance, SocketEvent.exit, htext]
    · simp [SocketServer.handle, SocketEvent.entrance, SocketEvent.exit, htext, rooms_join_iff]
  case leaveAuction =>
    rcases htext : auctionId.template with _ | text
    · simp [SocketServer.handle, SocketEvent.entrance, SocketEvent.exit, htext]
    · simp [SocketServer.handle, SocketEvent.entrance, SocketEvent.exit, htext, rooms_leave_iff]
  case joinBidder =>
    rcases hauthenticated : s.authenticatedSockets socket' address with _ | _
    · simp [SocketServer.handle, SocketEvent.exit, hauthenticated]
    · rcases htext : address.template with _ | text
      · simp [SocketServer.handle, SocketEvent.entrance, SocketEvent.exit, hauthenticated, htext]
      · simp [SocketServer.handle, SocketEvent.entrance, SocketEvent.exit, hauthenticated, htext,
          rooms_join_iff]
  case leaveBidder =>
    rcases htext : address.template with _ | text
    · simp [SocketServer.handle, SocketEvent.entrance, SocketEvent.exit, htext]
    · simp [SocketServer.handle, SocketEvent.entrance, SocketEvent.exit, htext, rooms_leave_iff]
  case disconnect =>
    by_cases hsocket : socket = socket'
    · subst hsocket
      simp [SocketServer.handle, SocketEvent.entrance]
    · simp [SocketServer.handle, hsocket]

/-- **Where a socket is after an event**: where it has just entered, and where it was and has not
gone out. -/
theorem SocketTick.rooms_iff (h : i.before.next verify i.now i.event = some (s', i.replies)) :
    s'.rooms socket room = true ↔
      i.Joins socket room ∨ (i.before.rooms socket room = true ∧ ¬i.Leaves socket room) := by
  rcases i with ⟨s, now, ⟨socket', event⟩ | _, replies⟩
  · have hrooms : (({ s with clock := now } : SocketServer Socket).handle verify now socket'
        event).1.rooms socket room = true ↔ _ := rooms_handle_iff verify now _ event
    rw [SocketServer.handle_of_next h] at hrooms
    rw [hrooms]
    by_cases hsocket : socket = socket'
    · subst hsocket
      simp [Joins, Leaves]
    · simp [Joins, Leaves, hsocket, Ne.symm hsocket]
  · cases h
    simp [Joins, Leaves]

/-- **What a handler does to the connections.** -/
theorem connected_handle_iff (verify : Native → String → Native → Bool) (now : ℤ)
    (s : SocketServer Socket) (event : SocketEvent) :
    (s.handle verify now socket' event).1.connected socket = true ↔
      (socket = socket' ∧ event = .connection) ∨
        (s.connected socket = true ∧ ¬(socket = socket' ∧ event = .disconnect)) := by
  have hhandled := SocketServer.handled_handle verify now s socket' event
  generalize (s.handle verify now socket' event).2 = replies at hhandled
  generalize (s.handle verify now socket' event).1 = s₁ at hhandled ⊢
  have hroom : event.aboutRoom = true → event ≠ .connection ∧ event ≠ .disconnect := by
    rintro habout
    constructor <;> rintro rfl <;> cases habout
  cases hhandled with
  | connected => by_cases hsocket : socket = socket' <;> simp [hsocket]
  | disconnected => by_cases hsocket : socket = socket' <;> simp [hsocket]
  | left habout => simp [SocketServer.leave, hroom habout]
  | unspelled habout => simp [hroom habout]
  | joinedAuction => simp [SocketServer.join]
  | joinedBidder => simp [SocketServer.join]
  | _ => simp

theorem SocketTick.connected_iff (h : i.before.next verify i.now i.event = some (s', i.replies)) :
    s'.connected socket = true ↔ i.event = .socket socket .connection ∨
      (i.before.connected socket = true ∧ i.Keeps socket) := by
  rcases i with ⟨s, now, ⟨socket', event⟩ | _, replies⟩
  · have hconnected : (({ s with clock := now } : SocketServer Socket).handle verify now socket'
        event).1.connected socket = true ↔ _ := connected_handle_iff verify now _ event
    rw [SocketServer.handle_of_next h] at hconnected
    rw [hconnected]
    by_cases hsocket : socket = socket'
    · subst hsocket
      simp [Keeps]
    · simp [Keeps, hsocket, Ne.symm hsocket]
  · cases h
    simp [Keeps]

/-- **A socket is in a room** exactly if it has entered it, and has not gone out since. -/
theorem SocketRun.rooms_iff (h : SocketRun verify tr s) : s.rooms socket room = true ↔
    History.Since (·.Joins socket room) (fun i => ¬i.Leaves socket room) tr := by
  have hstep : ∀ s (i : SocketTick Socket) s', i.before = s ∧ s.clock ≤ i.now ∧
      s.next verify i.now i.event = some (s', i.replies) → (s'.rooms socket room = true ↔
        i.Joins socket room ∨ (s.rooms socket room = true ∧ ¬i.Leaves socket room)) := by
    rintro s i s' ⟨rfl, -, hnext⟩
    exact SocketTick.rooms_iff hnext
  refine History.since_iff ?_ hstep h
  rintro s ⟨clock, rfl⟩
  exact Bool.false_ne_true

/-- **A socket is connected** exactly if it has connected, and not disconnected since. -/
theorem SocketRun.connected_iff (h : SocketRun verify tr s) : s.connected socket = true ↔
    History.Since (·.event = .socket socket .connection) (·.Keeps socket) tr := by
  have hstep : ∀ s (i : SocketTick Socket) s', i.before = s ∧ s.clock ≤ i.now ∧
      s.next verify i.now i.event = some (s', i.replies) → (s'.connected socket = true ↔
        i.event = .socket socket .connection ∨ (s.connected socket = true ∧ i.Keeps socket)) := by
    rintro s i s' ⟨rfl, -, hnext⟩
    exact SocketTick.connected_iff hnext
  refine History.since_iff ?_ hstep h
  rintro s ⟨clock, rfl⟩
  exact Bool.false_ne_true

/-- Whoever enters a room is connected, and stays so. -/
theorem SocketTick.Joins.connected (hjoins : i.Joins socket room)
    (h : i.before.next verify i.now i.event = some (s', i.replies)) :
    i.before.connected socket = true ∧ i.Keeps socket := by
  obtain ⟨event, hevent, hentrance, -⟩ := hjoins
  have hkeeps : i.Keeps socket := by
    intro hcon
    obtain ⟨-, rfl⟩ := ServerEvent.socket.inj (hevent.symm.trans hcon)
    cases hentrance
  refine ⟨?_, hkeeps⟩
  rw [hevent] at h
  cases event with
  | connection => cases hentrance
  | _ =>
    simp only [SocketServer.next] at h
    split at h
    · next hconnected => exact hconnected
    · cases h

/-- **Whoever is in a room is connected.** -/
theorem SocketRun.connected_of_member (h : SocketRun verify tr s) :
    s.rooms socket room = true → s.connected socket = true := by
  induction h with
  | start hs =>
    obtain ⟨clock, rfl⟩ := hs
    exact fun hroom => absurd hroom Bool.false_ne_true
  | @snoc tr s s' i h hs ih =>
    obtain ⟨rfl, -, hnext⟩ := hs
    rw [SocketTick.rooms_iff hnext, SocketTick.connected_iff hnext]
    rintro (hjoins | ⟨hroom, hstays⟩)
    · exact Or.inr (hjoins.connected hnext)
    · exact Or.inr ⟨ih hroom, fun hcon => hstays ⟨_, hcon, Or.inl rfl⟩⟩

/-- **The socket begins to get messages** that are for somebody. -/
def SocketTick.Subscribes (i : SocketTick Socket) (socket : Socket) : Audience → Prop
  | .everybody => i.event = .socket socket .connection
  | .room room => i.Joins socket room

/-- **The socket gets no more messages** that are for somebody. -/
def SocketTick.Unsubscribes (i : SocketTick Socket) (socket : Socket) : Audience → Prop
  | .everybody => ¬i.Keeps socket
  | .room room => i.Leaves socket room

/-- **Messages reach those who have subscribed to them**, and nobody else. -/
theorem SocketRun.reaches_iff (h : SocketRun verify tr s) (audience : Audience) :
    s.reaches audience socket = true ↔
      History.Since (·.Subscribes socket audience) (fun i => ¬i.Unsubscribes socket audience)
        tr := by
  cases audience with
  | everybody =>
    simp only [SocketServer.reaches, Bool.and_true, SocketTick.Subscribes, SocketTick.Unsubscribes,
      not_not]
    exact SocketRun.connected_iff h
  | room room =>
    simp only [SocketServer.reaches, Bool.and_eq_true, SocketTick.Subscribes,
      SocketTick.Unsubscribes]
    rw [← SocketRun.rooms_iff h]
    exact ⟨And.right, fun hroom => ⟨SocketRun.connected_of_member h hroom, hroom⟩⟩

end Rooms

/-! ### The sockets of a live server -/

/-- What an event is to the sockets, if it is anything. -/
def LiveTick.socketTick (i : LiveTick Socket) : Option (SocketTick Socket) :=
  match i.event with
  | .socket event => some ⟨i.before.server, i.now, event, i.replies⟩
  | .indexed _ _ => none

/-- What has happened to the sockets. -/
def socketTicks (tr : List (LiveTick Socket)) : List (SocketTick Socket) :=
  tr.filterMap (·.socketTick)

variable [DecidableEq Socket] {tr past : List (LiveTick Socket)} {s s' : LiveServer Socket}
  {i : LiveTick Socket} {socket : Socket} {b : Broadcast}

/-- **The sockets live their own life**: the ledger does not touch them. -/
theorem LiveRun.socketRun (h : LiveRun verify tr s) :
    SocketRun verify (socketTicks tr) s.server := by
  induction h with
  | start hs => exact .start hs
  | @snoc tr s s' i h hs ih =>
    obtain ⟨rfl, hclock, hnext⟩ := hs
    rw [socketTicks, List.filterMap_append]
    rcases hevent : i.event with event | ⟨event, failure⟩
    · rw [hevent] at hnext
      obtain ⟨⟨server, replies⟩, hserver, heq⟩ := Option.map_eq_some_iff.mp hnext
      obtain ⟨rfl, hreplies⟩ := Prod.mk.inj heq
      obtain ⟨rfl, -⟩ := Prod.mk.inj hreplies
      have htick : [i].filterMap (·.socketTick) = [⟨i.before.server, i.now, event, i.replies⟩] := by
        simp [LiveTick.socketTick, hevent]
      rw [htick]
      exact ih.snoc ⟨rfl, hclock, hserver⟩
    · rw [hevent] at hnext
      have htick : [i].filterMap (·.socketTick) = [] := by
        simp [LiveTick.socketTick, hevent]
      rw [htick, List.append_nil, ← (Prod.mk.inj (Option.some.inj hnext)).1]
      exact ih

/-! ### Along a run -/

theorem auctionRoom_inj {id id' : ℤ}
    (h : auctionRoom (toString id) = auctionRoom (toString id')) : id = id' := by
  have hlist := congrArg String.toList h
  simp only [auctionRoom, String.toList_append] at hlist
  exact Int.repr_injective (String.toList_injective (List.append_cancel_left hlist))

/-- **Delivery is exact** for what is announced in an event. -/
structure ExactDelivery (past : List (LiveTick Socket)) (i : LiveTick Socket) : Prop where
  /-- A message is received by those who have subscribed to it, and not given it up since. -/
  received_iff : ∀ socket b, i.Receives socket b ↔ b ∈ i.announcement.sent ∧
    History.Since (·.Subscribes socket b.audience) (fun j => ¬j.Unsubscribes socket b.audience)
      (socketTicks past)
  /-- What is sent to the room of an auction is about this auction, and has been processed. -/
  about : ∀ b ∈ i.announcement.sent, ∀ id : ℤ, b.audience = .room (auctionRoom (toString id)) →
    ∃ event failure eventType second rest, i.event = .indexed event failure ∧
      (i.before.db.process i.now failure event).2 = true ∧
        event.topics = eventType :: second :: rest ∧ auctionIdOf second = some id

theorem LiveRun.at_prefix (h : LiveRun verify tr s) (hpre : past ++ [i] <+: tr) :
    ∃ t t', LiveRun verify past t ∧ i.before = t ∧
      t.next verify i.now i.event = some (t', i.replies, i.announcement) := by
  obtain ⟨later, rfl⟩ := hpre
  obtain ⟨t', hrun, -⟩ := h.split
  obtain ⟨t, hpast, hbefore, -, hnext⟩ := hrun.of_snoc
  exact ⟨t, t', hpast, hbefore, hnext⟩

/-- **Messages reach exactly those who follow the auction**, in every run. -/
theorem LiveRun.exactDelivery (h : LiveRun verify tr s) :
    ∀ past i, past ++ [i] <+: tr → ExactDelivery past i := by
  intro past i hpre
  obtain ⟨t, t', hpast, hbefore, hnext⟩ := h.at_prefix hpre
  constructor
  · intro socket b
    rw [LiveTick.Receives, hbefore]
    exact and_congr_right fun _ => SocketRun.reaches_iff (LiveRun.socketRun hpast) b.audience
  · intro b hb id haudience
    obtain ⟨event, failure, eventType, second, rest, id', hevent, hcompleted, htopics, hid,
      hsent⟩ := LiveServer.exists_of_mem_sent hnext hb
    obtain ⟨a, ha, hmem⟩ := mem_sent_onEvent hsent
    rw [hbefore]
    refine ⟨event, failure, eventType, second, rest, hevent, hcompleted, htopics, ?_⟩
    rcases audience_of_announce ha hmem with ⟨-, heverybody⟩ | hroom |
      ⟨-, bidder, address, -, -, hroom⟩
    · cases heverybody.symm.trans haudience
    · rw [hid, auctionRoom_inj (Audience.room.inj (hroom.symm.trans haudience))]
    · exact absurd (Audience.room.inj (haudience.symm.trans hroom)) (auctionRoom_ne_bidderRoom _ _)

/-- A refund of the account GA in auction 7. -/
def Stage.refundOfGA : SorobanEvent where
  ledger := 100
  topics := [.string "bid_refunded", .number 7, .string "GA"]
  data := .object [("bidder", .string "GA"), ("amount", .string "500")]
  txHash := none

/-- Client 0 proves to hold the key of GA and joins the room, client 1 follows auction 7, and a
refund of GA in this auction is processed. -/
def Stage.refunding : List (ℤ × LiveEvent ℕ) :=
  Stage.joining.map (fun e => (e.1, .socket e.2)) ++
    [(1700000000000, .socket (.socket 1 (.joinAuction (.number 7)))),
      (1700000000000, .indexed Stage.refundOfGA none)]

/-- Who gets the messages of the last event, of these two. -/
def Stage.reached (tr : List (LiveTick ℕ)) : Option (List (Bool × Bool)) :=
  tr.getLast?.map fun i => i.announcement.sent.map fun b =>
    (i.before.server.reaches b.audience 0, i.before.server.reaches b.audience 1)

theorem Stage.exists_refunding : ∃ (tr : List (LiveTick ℕ)) (s : LiveServer ℕ),
    LiveRun Stage.legible tr s ∧ tr.map (fun i => (i.now, i.event)) = Stage.refunding ∧
      Stage.reached tr = some [(false, true), (true, false)] := by
  have hplay : (History.replay (LiveServer.play Stage.legible)
      ⟨.initial 1700000000000, .blank⟩ Stage.refunding).map (fun r => Stage.reached r.1) =
        some (some [(false, true), (true, false)]) := by decide +kernel
  exact LiveRun.exists_of_play 1700000000000 .blank hplay

/-- The theorem at these clients. -/
theorem exactDelivery_refunding : ∃ (tr : List (LiveTick ℕ)) (s : LiveServer ℕ),
    LiveRun Stage.legible tr s ∧ Stage.reached tr = some [(false, true), (true, false)] ∧
      ∀ past i, past ++ [i] <+: tr → ExactDelivery past i := by
  obtain ⟨tr, s, hrun, -, hreached⟩ := Stage.exists_refunding
  exact ⟨tr, s, hrun, hreached, hrun.exactDelivery⟩

/-- **What is sent to the room of a bidder stays with the bidder.** -/
structure PrivateRefunds (verify : Native → String → Native → Bool)
    (past : List (LiveTick Socket)) (i : LiveTick Socket) : Prop where
  /-- Whoever receives it has proved to hold the key of the address, and has not been disconnected
  since. -/
  proved : ∀ socket b address, i.Receives socket b → b.audience = .room (bidderRoom address) →
    History.Since (fun j => ∃ x, x.template = some address ∧ j.Proves verify socket x)
      (·.Keeps socket) (socketTicks past)
  /-- It is about a refund of this bidder, which has been processed. -/
  refunded : ∀ b ∈ i.announcement.sent, ∀ address, b.audience = .room (bidderRoom address) →
    ∃ event failure bidder, i.event = .indexed event failure ∧
      (i.before.db.process i.now failure event).2 = true ∧
        event.topics.head? = some (.string "bid_refunded") ∧
          event.data.field "bidder" = .ok bidder ∧ bidder.template = some address

/-- **Refunds are private**, in every run. -/
theorem LiveRun.refunds_private (h : LiveRun verify tr s) :
    ∀ past i, past ++ [i] <+: tr → PrivateRefunds verify past i := by
  intro past i hpre
  obtain ⟨t, t', hpast, hbefore, hnext⟩ := h.at_prefix hpre
  constructor
  · rintro socket b address ⟨-, hreaches⟩ haudience
    rw [hbefore, haudience, SocketServer.reaches, Bool.and_eq_true] at hreaches
    exact SocketRun.member_proved (LiveRun.socketRun hpast) address hreaches.2
  · intro b hb address haudience
    obtain ⟨event, failure, eventType, second, rest, id, hevent, hcompleted, htopics, -, hsent⟩ :=
      LiveServer.exists_of_mem_sent hnext hb
    obtain ⟨a, ha, hmem⟩ := mem_sent_onEvent hsent
    rw [hbefore]
    rcases audience_of_announce ha hmem with ⟨-, heverybody⟩ | hroom |
      ⟨htype, bidder, address', hbidder, haddress, hroom⟩
    · cases heverybody.symm.trans haudience
    · exact absurd (Audience.room.inj (hroom.symm.trans haudience)) (auctionRoom_ne_bidderRoom _ _)
    · refine ⟨event, failure, bidder, hevent, hcompleted, ?_, hbidder, ?_⟩
      · rw [htopics, htype]
        rfl
      · rw [haddress, bidderRoom_inj (Audience.room.inj (hroom.symm.trans haudience))]

/-- The theorem at these clients. -/
theorem refunds_private_refunding : ∃ (tr : List (LiveTick ℕ)) (s : LiveServer ℕ),
    LiveRun Stage.legible tr s ∧ Stage.reached tr = some [(false, true), (true, false)] ∧
      ∀ past i, past ++ [i] <+: tr → PrivateRefunds Stage.legible past i := by
  obtain ⟨tr, s, hrun, -, hreached⟩ := Stage.exists_refunding
  exact ⟨tr, s, hrun, hreached, hrun.refunds_private⟩

end UrithiBidz
