import Mathlib.Logic.Function.Basic
import UrithiBidz.Library.History
import UrithiBidz.Server.Challenge

/-!
# Sockets

Clients follow the auctions over sockets (`ws/socket_server.ts`). Anybody may join the room of an
auction; the room of a bidder is for sockets that have proved to hold the key of its address. For
the proof the server hands out a random nonce, which is to be signed within five minutes. It keeps
one for each address, whoever has asked for it. A client that has not asked may sign a time
instead, as it does for a request.

`UrithiBidz.verifyStellarSignature` judges a proof, and `UrithiBidz.verifyStellarSignature_cases`
lists how it can end. `UrithiBidz.SocketServer.next` is what an event does to the server, and what
is sent back. The handlers do not wait for anything, so each of them is one step.
-/

namespace UrithiBidz

/-- A nonce that the server has handed out, and until when it is good. -/
structure ServerNonce where
  nonce : String
  expires : ℤ
  deriving DecidableEq

/-- The nonces, by the address they were asked for. -/
abbrev ServerNonces := Native → Option ServerNonce

/-- `serverNonces.set(address, …)`, or `serverNonces.delete(address)`. -/
def ServerNonces.put (serverNonces : ServerNonces) (address : Native)
    (entry : Option ServerNonce) : ServerNonces := fun x =>
  if x.same address then entry else serverNonces x

/-- A round of the timer: what has expired is thrown out. -/
def ServerNonces.cleanup (now : ℤ) (serverNonces : ServerNonces) : ServerNonces := fun x =>
  (serverNonces x).filter fun entry => ¬entry.expires < now

/-- Judge a proof: whether it is one, and the nonces then. What throws is no proof, and the first
thing to throw is a message that is no text. -/
def verifyStellarSignature (verify : Native → String → Native → Bool) (now : ℤ)
    (address message signedMessage : Native) (serverNonces : ServerNonces) : Bool × ServerNonces :=
  match message with
  | .string message =>
    if ¬authPrefix <+: message.toList then (false, serverNonces)
    else
      let nonce := nonceOf message
      if nonce = "" then (false, serverNonces)
      else
        match serverNonces address with
        | some serverNonce =>
          if serverNonce.expires < now then (false, serverNonces.put address none)
          else if nonce ≠ serverNonce.nonce then (false, serverNonces)
          else (verify address message signedMessage, serverNonces.put address none)
        | none =>
          match nonceTimestamp nonce with
          | none => (false, serverNonces)
          | some nonceMs =>
            if NonceExpired now nonceMs then (false, serverNonces)
            else (verify address message signedMessage, serverNonces)
  | _ => (false, serverNonces)

/-! ### How a proof is judged -/

/-- **How it can end**: nothing is proved, and a nonce may be lost; the nonce of the server was
signed, and is used up; or a time was. -/
inductive Judged (verify : Native → String → Native → Bool) (now : ℤ)
    (address message signedMessage : Native) (serverNonces : ServerNonces) :
    Bool × ServerNonces → Prop
  | refused : Judged verify now address message signedMessage serverNonces (false, serverNonces)
  | spoilt (h : (serverNonces address).isSome) :
    Judged verify now address message signedMessage serverNonces
      (false, serverNonces.put address none)
  | challenged {text : String} {serverNonce : ServerNonce} (hm : message = .string text)
      (hentry : serverNonces address = some serverNonce) (hstarts : authPrefix <+: text.toList)
      (hnonce : nonceOf text ≠ "") (hsame : nonceOf text = serverNonce.nonce)
      (hgood : ¬serverNonce.expires < now) (hverify : verify address text signedMessage = true) :
    Judged verify now address message signedMessage serverNonces
      (true, serverNonces.put address none)
  | timed {text : String} {nonceMs : ℤ} (hm : message = .string text)
      (hnone : serverNonces address = none) (hstarts : authPrefix <+: text.toList)
      (hnonce : nonceOf text ≠ "") (htime : nonceTimestamp (nonceOf text) = some nonceMs)
      (hgood : ¬NonceExpired now nonceMs) (hverify : verify address text signedMessage = true) :
    Judged verify now address message signedMessage serverNonces (true, serverNonces)

variable {verify : Native → String → Native → Bool} {now : ℤ}
  {address message signedMessage : Native} {serverNonces : ServerNonces}

/-- **It ends in one of these ways.** -/
theorem verifyStellarSignature_cases (verify : Native → String → Native → Bool) (now : ℤ)
    (address message signedMessage : Native) (serverNonces : ServerNonces) :
    Judged verify now address message signedMessage serverNonces
      (verifyStellarSignature verify now address message signedMessage serverNonces) := by
  unfold verifyStellarSignature
  split
  · next text =>
    split
    · exact .refused
    · next hstarts =>
      dsimp only
      split
      · exact .refused
      · next hempty =>
        rcases hnonce : serverNonces address with _ | serverNonce
        · dsimp only
          -- no nonce was handed out, so the message is judged by its time
          rcases htime : nonceTimestamp (nonceOf text) with _ | nonceMs
          · exact .refused
          · dsimp only
            split
            · exact .refused
            · next hgood =>
              rcases hverify : verify address text signedMessage with _ | _
              · exact .refused
              · exact .timed rfl hnonce (not_not.mp hstarts) hempty htime hgood hverify
        · dsimp only
          split
          · -- a nonce that has expired is deleted, whatever comes after the prefix
            exact .spoilt (by rw [hnonce]; rfl)
          · next hgood =>
            split
            · exact .refused
            · next hsame =>
              rcases hverify : verify address text signedMessage with _ | _
              · -- and one that is right is deleted before the signature is looked at
                exact .spoilt (by rw [hnonce]; rfl)
              · exact .challenged rfl hnonce (not_not.mp hstarts) hempty (not_not.mp hsame) hgood
                  hverify
  · exact .refused

/-- **What was proved if it is a proof**: a nonce of the server was signed, and is used up, or a
time was. -/
theorem verifyStellarSignature_eq_true
    (h : (verifyStellarSignature verify now address message signedMessage serverNonces).1 = true) :
    (∃ text serverNonce, message = .string text ∧ serverNonces address = some serverNonce ∧
      nonceOf text = serverNonce.nonce ∧ ¬serverNonce.expires < now ∧
        verify address text signedMessage = true ∧
          (verifyStellarSignature verify now address message signedMessage serverNonces).2 =
            serverNonces.put address none) ∨
    (∃ text nonceMs, message = .string text ∧ serverNonces address = none ∧
      nonceTimestamp (nonceOf text) = some nonceMs ∧ ¬NonceExpired now nonceMs ∧
        verify address text signedMessage = true ∧
          (verifyStellarSignature verify now address message signedMessage serverNonces).2 =
            serverNonces) := by
  have hjudged := verifyStellarSignature_cases verify now address message signedMessage serverNonces
  generalize verifyStellarSignature verify now address message signedMessage serverNonces = judged
    at hjudged h ⊢
  cases hjudged with
  | refused => exact absurd h Bool.false_ne_true
  | spoilt => exact absurd h Bool.false_ne_true
  | @challenged text entry hm hentry hstarts hnonce hsame hgood hverify =>
    exact Or.inl ⟨text, entry, hm, hentry, hsame, hgood, hverify, rfl⟩
  | @timed text nonceMs hm hnone hstarts hnonce htime hgood hverify =>
    exact Or.inr ⟨text, nonceMs, hm, hnone, htime, hgood, hverify, rfl⟩

/-- **What is proved has the prefix, and a nonce behind it.** -/
theorem wellFormed_of_verify {text : String} (hm : message = .string text)
    (h : (verifyStellarSignature verify now address message signedMessage serverNonces).1 = true) :
    authPrefix <+: text.toList ∧ nonceOf text ≠ "" := by
  have hjudged := verifyStellarSignature_cases verify now address message signedMessage serverNonces
  generalize verifyStellarSignature verify now address message signedMessage serverNonces = judged
    at hjudged h
  cases hjudged with
  | refused => exact absurd h Bool.false_ne_true
  | spoilt => exact absurd h Bool.false_ne_true
  | challenged hm' _ hstarts hnonce =>
    cases hm.symm.trans hm'
    exact ⟨hstarts, hnonce⟩
  | timed hm' _ hstarts hnonce =>
    cases hm.symm.trans hm'
    exact ⟨hstarts, hnonce⟩

theorem ServerNonces.put_none (x : Native) : serverNonces.put address none x = serverNonces x ∨
    serverNonces.put address none x = none := by
  unfold put
  split
  · exact Or.inr rfl
  · exact Or.inl rfl

/-- **Judging a proof hands out no nonce.** -/
theorem serverNonces_of_verify (verify : Native → String → Native → Bool) (now : ℤ)
    (address message signedMessage : Native) (serverNonces : ServerNonces) (x : Native) :
    (verifyStellarSignature verify now address message signedMessage serverNonces).2 x =
        serverNonces x ∨
      (verifyStellarSignature verify now address message signedMessage serverNonces).2 x =
        none := by
  have hjudged := verifyStellarSignature_cases verify now address message signedMessage serverNonces
  generalize verifyStellarSignature verify now address message signedMessage serverNonces = judged
    at hjudged ⊢
  cases hjudged with
  | refused => exact Or.inl rfl
  | spoilt => exact serverNonces.put_none x
  | challenged => exact serverNonces.put_none x
  | timed => exact Or.inl rfl

/-! ### The server -/

variable {Socket : Type}

/-- The rooms of an auction and of a bidder, as they are spelled. -/
def auctionRoom (auctionId : String) : String := "auction:" ++ auctionId

def bidderRoom (address : String) : String := "bidder:" ++ address

/-- What a client does. With a request for a nonce comes what `randomUUID` returns. -/
inductive SocketEvent
  | connection
  | requestNonce (payload : Native) (uuid : String)
  | authenticate (payload : Native)
  | joinAuction (auctionId : Native)
  | leaveAuction (auctionId : Native)
  | joinBidder (address : Native)
  | leaveBidder (address : Native)
  | disconnect

/-- It is about a room that is joined or left. -/
def SocketEvent.aboutRoom : SocketEvent → Bool
  | .joinAuction _ => true
  | .leaveAuction _ => true
  | .joinBidder _ => true
  | .leaveBidder _ => true
  | _ => false

variable (Socket) in
/-- What happens next: one of the clients does something, or the timer makes a round. -/
inductive ServerEvent
  | socket (socket : Socket) (event : SocketEvent)
  | cleanup

/-- What is sent back to the client: the name of an event, and its payload. -/
abbrev Reply := String × Native

/-- An error, as it is sent. -/
def authError (error : String) : Reply := ("auth:error", .object [("error", .string error)])

variable (Socket) in
/-- The state of the server, and the time of the last event. -/
structure SocketServer where
  clock : ℤ
  connected : Socket → Bool
  serverNonces : ServerNonces
  authenticatedSockets : Socket → Native → Bool
  rooms : Socket → String → Bool

namespace SocketServer

variable [DecidableEq Socket]

/-- The server when it has just been started. -/
def initial (clock : ℤ) : SocketServer Socket where
  clock := clock
  connected := fun _ => false
  serverNonces := fun _ => none
  authenticatedSockets := fun _ _ => false
  rooms := fun _ _ => false

/-- `socket.join(room)` -/
def join (s : SocketServer Socket) (socket : Socket) (room : String) : SocketServer Socket :=
  { s with rooms := Function.update s.rooms socket fun r => r = room || s.rooms socket r }

/-- `socket.leave(room)` -/
def leave (s : SocketServer Socket) (socket : Socket) (room : String) : SocketServer Socket :=
  { s with rooms := Function.update s.rooms socket fun r => r ≠ room && s.rooms socket r }

/-- The handlers: the state and what is sent back. A room whose name cannot be spelled is neither
joined nor left; the handler throws. -/
def handle (verify : Native → String → Native → Bool) (now : ℤ) (s : SocketServer Socket)
    (socket : Socket) : SocketEvent → SocketServer Socket × List Reply
  | .connection => ({ s with connected := Function.update s.connected socket true }, [])
  | .requestNonce payload uuid =>
    let address := payload.prop "address"
    if ¬address.truthy then (s, [authError "Missing address"])
    else
      ({ s with serverNonces := s.serverNonces.put address (some ⟨uuid, now + authNonceMaxAgeMs⟩) },
        [("auth:nonce", .object [("nonce", .string uuid),
          ("message", .string (String.ofList authPrefix ++ uuid))])])
  | .authenticate payload =>
    let address := payload.prop "address"
    let signature := payload.prop "signature"
    let message := payload.prop "message"
    if ¬(address.truthy ∧ signature.truthy ∧ message.truthy) then
      (s, [authError "Missing address, signature, or message"])
    else
      let (valid, serverNonces) :=
        verifyStellarSignature verify now address message signature s.serverNonces
      if ¬valid then ({ s with serverNonces := serverNonces }, [authError "Invalid signature"])
      else
        ({ s with
          serverNonces := serverNonces
          authenticatedSockets := Function.update s.authenticatedSockets socket fun x =>
            x.same address || s.authenticatedSockets socket x },
        [("auth:success", .object [("address", address)])])
  | .joinAuction auctionId =>
    match auctionId.template with
    | some text => (s.join socket (auctionRoom text), [])
    | none => (s, [])
  | .leaveAuction auctionId =>
    match auctionId.template with
    | some text => (s.leave socket (auctionRoom text), [])
    | none => (s, [])
  | .joinBidder address =>
    if ¬s.authenticatedSockets socket address then
      (s, [authError "Authentication required. Send authenticate event first."])
    else
      match address.template with
      | some text => (s.join socket (bidderRoom text), [])
      | none => (s, [])
  | .leaveBidder address =>
    match address.template with
    | some text => (s.leave socket (bidderRoom text), [])
    | none => (s, [])
  | .disconnect =>
    ({ s with
      connected := Function.update s.connected socket false
      authenticatedSockets := Function.update s.authenticatedSockets socket fun _ => false
      rooms := Function.update s.rooms socket fun _ => false }, [])

/-- **What an event does**, if it can happen: a client connects once, and does nothing else
without. -/
def next (verify : Native → String → Native → Bool) (now : ℤ) (s : SocketServer Socket) :
    ServerEvent Socket → Option (SocketServer Socket × List Reply)
  | .socket socket .connection =>
    if s.connected socket then none
    else some (handle verify now { s with clock := now } socket .connection)
  | .socket socket event =>
    if s.connected socket then some (handle verify now { s with clock := now } socket event)
    else none
  | .cleanup => some ({ s with clock := now, serverNonces := s.serverNonces.cleanup now }, [])

/-! ### What an event does -/

variable {s s' : SocketServer Socket} {socket : Socket} {event : SocketEvent}
  {replies : List Reply}

theorem handle_of_next (h : s.next verify now (.socket socket event) = some (s', replies)) :
    handle verify now { s with clock := now } socket event = (s', replies) := by
  cases event with
  | connection =>
    simp only [next] at h
    split at h
    · cases h
    · exact Option.some.inj h
  | _ =>
    simp only [next] at h
    split at h
    · exact Option.some.inj h
    · cases h

/-- **What a handler does**, case by case. -/
inductive Handled (verify : Native → String → Native → Bool) (now : ℤ) (s : SocketServer Socket)
    (socket : Socket) : SocketEvent → SocketServer Socket → List Reply → Prop
  | connected : Handled verify now s socket .connection
      { s with connected := Function.update s.connected socket true } []
  | noAddress {payload : Native} {uuid : String}
      (haddress : ¬(payload.prop "address").truthy = true) :
      Handled verify now s socket (.requestNonce payload uuid) s [authError "Missing address"]
  | issued {payload : Native} {uuid : String} (haddress : (payload.prop "address").truthy = true) :
      Handled verify now s socket (.requestNonce payload uuid)
        { s with
          serverNonces := s.serverNonces.put (payload.prop "address")
            (some ⟨uuid, now + authNonceMaxAgeMs⟩) }
        [("auth:nonce", .object [("nonce", .string uuid),
          ("message", .string (String.ofList authPrefix ++ uuid))])]
  | incomplete {payload : Native}
      (hincomplete : ¬((payload.prop "address").truthy ∧ (payload.prop "signature").truthy ∧
        (payload.prop "message").truthy)) :
      Handled verify now s socket (.authenticate payload) s
        [authError "Missing address, signature, or message"]
  | invalid {payload : Native}
      (hcomplete : (payload.prop "address").truthy ∧ (payload.prop "signature").truthy ∧
        (payload.prop "message").truthy)
      (hinvalid : (verifyStellarSignature verify now (payload.prop "address")
        (payload.prop "message") (payload.prop "signature") s.serverNonces).1 = false) :
      Handled verify now s socket (.authenticate payload)
        { s with
          serverNonces := (verifyStellarSignature verify now (payload.prop "address")
            (payload.prop "message") (payload.prop "signature") s.serverNonces).2 }
        [authError "Invalid signature"]
  | proved {payload : Native}
      (hcomplete : (payload.prop "address").truthy ∧ (payload.prop "signature").truthy ∧
        (payload.prop "message").truthy)
      (hvalid : (verifyStellarSignature verify now (payload.prop "address")
        (payload.prop "message") (payload.prop "signature") s.serverNonces).1 = true) :
      Handled verify now s socket (.authenticate payload)
        { s with
          serverNonces := (verifyStellarSignature verify now (payload.prop "address")
            (payload.prop "message") (payload.prop "signature") s.serverNonces).2
          authenticatedSockets := Function.update s.authenticatedSockets socket fun x =>
            x.same (payload.prop "address") || s.authenticatedSockets socket x }
        [("auth:success", .object [("address", payload.prop "address")])]
  | joinedAuction {auctionId : Native} {text : String} (htext : auctionId.template = some text) :
      Handled verify now s socket (.joinAuction auctionId) (s.join socket (auctionRoom text)) []
  | joinedBidder {address : Native} {text : String}
      (hauthenticated : s.authenticatedSockets socket address = true)
      (htext : address.template = some text) :
      Handled verify now s socket (.joinBidder address) (s.join socket (bidderRoom text)) []
  | notAuthenticated {address : Native} :
      Handled verify now s socket (.joinBidder address) s
        [authError "Authentication required. Send authenticate event first."]
  | left {event : SocketEvent} {room : String} (hevent : event.aboutRoom = true) :
      Handled verify now s socket event (s.leave socket room) []
  | unspelled {event : SocketEvent} (hevent : event.aboutRoom = true) :
      Handled verify now s socket event s []
  | disconnected : Handled verify now s socket .disconnect
      { s with
        connected := Function.update s.connected socket false
        authenticatedSockets := Function.update s.authenticatedSockets socket fun _ => false
        rooms := Function.update s.rooms socket fun _ => false } []

variable (verify now s socket event) in
theorem handled_handle : Handled verify now s socket event (handle verify now s socket event).1
    (handle verify now s socket event).2 := by
  rcases event with _ | ⟨payload, uuid⟩ | payload | auctionId | auctionId | address | address | _
  · exact .connected
  · simp only [handle]
    split
    · next haddress => exact .noAddress haddress
    · next haddress => exact .issued (not_not.mp haddress)
  · simp only [handle]
    split
    · next hincomplete => exact .incomplete hincomplete
    · next hcomplete =>
      split
      · next hinvalid => exact .invalid (not_not.mp hcomplete) (by simpa using hinvalid)
      · next hvalid => exact .proved (not_not.mp hcomplete) (by simpa using hvalid)
  · simp only [handle]
    split
    · next text htext => exact .joinedAuction htext
    · exact .unspelled rfl
  · simp only [handle]
    split
    · exact .left rfl
    · exact .unspelled rfl
  · simp only [handle]
    split
    · exact .notAuthenticated
    · next hauthenticated =>
      split
      · next text htext => exact .joinedBidder (not_not.mp hauthenticated) htext
      · exact .unspelled rfl
  · simp only [handle]
    split
    · exact .left rfl
    · exact .unspelled rfl
  · exact .disconnected

/-- **What an event of a client does.** -/
theorem handled_of_next (h : s.next verify now (.socket socket event) = some (s', replies)) :
    Handled verify now { s with clock := now } socket event s' replies := by
  have hhandled := handled_handle verify now { s with clock := now } socket event
  rw [handle_of_next h] at hhandled
  exact hhandled

theorem clock_of_next {event : ServerEvent Socket}
    (h : s.next verify now event = some (s', replies)) : s'.clock = now := by
  rcases event with ⟨socket, event⟩ | _
  · cases handled_of_next h <;> rfl
  · cases h
    rfl

/-- **What a proof has to meet.** -/
structure AcceptsProof (verify : Native → String → Native → Bool) (now : ℤ)
    (s : SocketServer Socket) (socket : Socket) (payload : Native) : Prop where
  connected : s.connected socket = true
  complete : (payload.prop "address").truthy ∧ (payload.prop "signature").truthy ∧
    (payload.prop "message").truthy
  valid : (verifyStellarSignature verify now (payload.prop "address") (payload.prop "message")
    (payload.prop "signature") s.serverNonces).1 = true

/-- **A proof that succeeds** has met it, and this is what it does to the nonces. -/
theorem eq_of_success {payload : Native}
    (h : s.next verify now (.socket socket (.authenticate payload)) = some (s', replies))
    (hsuccess : ("auth:success", .object [("address", payload.prop "address")]) ∈ replies) :
    AcceptsProof verify now s socket payload ∧
      s'.serverNonces = (verifyStellarSignature verify now (payload.prop "address")
        (payload.prop "message") (payload.prop "signature") s.serverNonces).2 ∧
        s'.connected = s.connected := by
  have herror : ∀ error : String, ("auth:success", Native.object
      [("address", payload.prop "address")]) ∉ [authError error] := fun error hmem =>
    absurd (Prod.mk.inj (List.mem_singleton.mp hmem)).1 (by decide)
  have hconnected : s.connected socket = true := by
    by_contra hno
    simp only [next, if_neg hno] at h
    cases h
  cases handled_of_next h with
  | incomplete => exact absurd hsuccess (herror _)
  | invalid => exact absurd hsuccess (herror _)
  | proved hcomplete hvalid => exact ⟨⟨hconnected, hcomplete, hvalid⟩, rfl, rfl⟩
  | left => exact absurd hsuccess List.not_mem_nil
  | unspelled => exact absurd hsuccess List.not_mem_nil

theorem AcceptsProof.success {payload : Native} (h : AcceptsProof verify now s socket payload) :
    ∃ s', s.next verify now (.socket socket (.authenticate payload)) =
      some (s', [("auth:success", .object [("address", payload.prop "address")])]) := by
  simp only [next, h.connected, if_true, handle]
  rw [if_neg (not_not.mpr h.complete), if_neg (by simpa using h.valid)]
  exact ⟨_, rfl⟩

/-- **What becomes of the nonce of an address**: it stays, it is deleted, or it is a new one, which
has been asked for. -/
theorem serverNonces_of_next {event : ServerEvent Socket}
    (h : s.next verify now event = some (s', replies)) (x : Native) :
    s'.serverNonces x = s.serverNonces x ∨ s'.serverNonces x = none ∨
      ∃ socket payload uuid, event = .socket socket (.requestNonce payload uuid) ∧
        (payload.prop "address").truthy = true ∧ x.same (payload.prop "address") = true ∧
          s'.serverNonces x = some ⟨uuid, now + authNonceMaxAgeMs⟩ := by
  rcases event with ⟨socket, event⟩ | _
  · cases handled_of_next h with
    | @issued payload uuid haddress =>
      by_cases hsame : x.same (payload.prop "address") = true
      · exact Or.inr (Or.inr ⟨socket, payload, uuid, rfl, haddress, hsame, if_pos hsame⟩)
      · exact Or.inl (if_neg hsame)
    | invalid => exact (serverNonces_of_verify verify now _ _ _ s.serverNonces x).imp_right Or.inl
    | proved => exact (serverNonces_of_verify verify now _ _ _ s.serverNonces x).imp_right Or.inl
    | _ => exact Or.inl rfl
  · cases h
    rcases hx : s.serverNonces x with _ | entry
    · exact Or.inl (by simp only [ServerNonces.cleanup, hx, Option.filter_none])
    · by_cases hold : entry.expires < now
      · exact Or.inr (Or.inl (by simp [ServerNonces.cleanup, hx, hold]))
      · exact Or.inl (by simp [ServerNonces.cleanup, hx, not_lt.mp hold])

omit [DecidableEq Socket] in
theorem ne_disconnect {socket' : Socket} (hevent : event.aboutRoom = true) :
    ServerEvent.socket socket' event ≠ .socket socket .disconnect := by
  intro hcon
  rw [(ServerEvent.socket.inj hcon).2] at hevent
  cases hevent

/-- **Where the addresses of a socket come from**: it has proved to hold the key, or had them
before. -/
theorem authenticated_of_next {event : ServerEvent Socket}
    (h : s.next verify now event = some (s', replies)) {x : Native}
    (hx : s'.authenticatedSockets socket x = true) :
    (s.authenticatedSockets socket x = true ∧ event ≠ .socket socket .disconnect) ∨
      ∃ payload, event = .socket socket (.authenticate payload) ∧
        payload.prop "address" = x ∧ AcceptsProof verify now s socket payload := by
  rcases event with ⟨socket', event⟩ | _
  · cases handled_of_next h with
    | @proved payload hcomplete hvalid =>
      obtain ⟨hmeets, -, -⟩ := eq_of_success h (List.mem_singleton_self _)
      by_cases hsocket : socket = socket'
      · subst hsocket
        simp only [Function.update_self, Bool.or_eq_true] at hx
        rcases hx with hsame | hold
        · exact Or.inr ⟨payload, rfl, (Native.eq_of_same hsame).symm, hmeets⟩
        · exact Or.inl ⟨hold, nofun⟩
      · simp only [Function.update_of_ne hsocket] at hx
        exact Or.inl ⟨hx, nofun⟩
    | disconnected =>
      by_cases hsocket : socket = socket'
      · subst hsocket
        simp at hx
      · simp only [Function.update_of_ne hsocket] at hx
        refine Or.inl ⟨hx, fun hevent => ?_⟩
        cases hevent
        exact hsocket rfl
    | left hevent => exact Or.inl ⟨hx, ne_disconnect hevent⟩
    | unspelled hevent => exact Or.inl ⟨hx, ne_disconnect hevent⟩
    | _ => exact Or.inl ⟨hx, nofun⟩
  · cases h
    exact Or.inl ⟨hx, nofun⟩

theorem rooms_join {t : SocketServer Socket} {socket' : Socket} {room room' : String}
    (h : (t.join socket' room').rooms socket room = true) :
    t.rooms socket room = true ∨ (socket = socket' ∧ room = room') := by
  by_cases hsocket : socket = socket'
  · subst hsocket
    simp only [join, Function.update_self, Bool.or_eq_true, decide_eq_true_eq] at h
    exact h.symm.imp_right fun hnew => ⟨rfl, hnew⟩
  · simp only [join, Function.update_of_ne hsocket] at h
    exact Or.inl h

theorem rooms_leave {t : SocketServer Socket} {socket' : Socket} {room room' : String}
    (h : (t.leave socket' room').rooms socket room = true) : t.rooms socket room = true := by
  by_cases hsocket : socket = socket'
  · subst hsocket
    simp only [leave, Function.update_self, Bool.and_eq_true] at h
    exact h.2
  · simp only [leave, Function.update_of_ne hsocket] at h
    exact h

/-- **Where a socket is a member**: where it was before, and where it has just joined. -/
theorem rooms_of_next {event : ServerEvent Socket}
    (h : s.next verify now event = some (s', replies)) {room : String}
    (hroom : s'.rooms socket room = true) :
    (s.rooms socket room = true ∧ event ≠ .socket socket .disconnect) ∨
      (∃ auctionId text, event = .socket socket (.joinAuction auctionId) ∧
        auctionId.template = some text ∧ room = auctionRoom text) ∨
      ∃ address text, event = .socket socket (.joinBidder address) ∧
        address.template = some text ∧ room = bidderRoom text ∧
          s.authenticatedSockets socket address = true := by
  rcases event with ⟨socket', event⟩ | _
  · cases handled_of_next h with
    | @joinedAuction auctionId text htext =>
      rcases rooms_join hroom with hold | ⟨rfl, hnew⟩
      · exact Or.inl ⟨hold, nofun⟩
      · exact Or.inr (Or.inl ⟨auctionId, text, rfl, htext, hnew⟩)
    | @joinedBidder address text hauthenticated htext =>
      rcases rooms_join hroom with hold | ⟨rfl, hnew⟩
      · exact Or.inl ⟨hold, nofun⟩
      · exact Or.inr (Or.inr ⟨address, text, rfl, htext, hnew, hauthenticated⟩)
    | left hevent => exact Or.inl ⟨rooms_leave hroom, ne_disconnect hevent⟩
    | unspelled hevent => exact Or.inl ⟨hroom, ne_disconnect hevent⟩
    -- a client that disconnects leaves its rooms
    | disconnected =>
      by_cases hsocket : socket = socket'
      · subst hsocket
        simp at hroom
      · simp only [Function.update_of_ne hsocket] at hroom
        refine Or.inl ⟨hroom, fun hevent => ?_⟩
        cases hevent
        exact hsocket rfl
    | _ => exact Or.inl ⟨hroom, nofun⟩
  · cases h
    exact Or.inl ⟨hroom, nofun⟩

end SocketServer

/-! ### Runs -/

variable (Socket) in
/-- An event, with its time, the state before it and what is sent back. -/
structure SocketTick where
  before : SocketServer Socket
  now : ℤ
  event : ServerEvent Socket
  replies : List Reply

/-- **The life of a server**: the clock does not go back. -/
abbrev SocketRun [DecidableEq Socket] (verify : Native → String → Native → Bool) :
    List (SocketTick Socket) → SocketServer Socket → Prop :=
  History (fun s => ∃ clock, s = SocketServer.initial clock) fun s i s' =>
    i.before = s ∧ s.clock ≤ i.now ∧ s.next verify i.now i.event = some (s', i.replies)

variable [DecidableEq Socket]

/-- Let an event happen, if it can happen now. -/
def SocketServer.play (verify : Native → String → Native → Bool) (s : SocketServer Socket)
    (event : ℤ × ServerEvent Socket) : Option (SocketTick Socket × SocketServer Socket) :=
  if s.clock ≤ event.1 then
    (s.next verify event.1 event.2).map fun (s', replies) => (⟨s, event.1, event.2, replies⟩, s')
  else none

theorem SocketServer.play_eq_some {event : ℤ × ServerEvent Socket} {i : SocketTick Socket}
    {s s' : SocketServer Socket} (h : s.play verify event = some (i, s')) :
    (i.before = s ∧ s.clock ≤ i.now ∧ s.next verify i.now i.event = some (s', i.replies)) ∧
      (i.now, i.event) = event := by
  unfold play at h
  split at h
  · next hclock =>
    obtain ⟨⟨s₁, replies⟩, hnext, heq⟩ := Option.map_eq_some_iff.mp h
    cases heq
    exact ⟨⟨rfl, hclock, hnext⟩, rfl⟩
  · cases h

/-- **Runs by evaluation**: whatever is read off a script of events is read off a run. -/
theorem SocketRun.exists_of_play {γ : Type} (clock : ℤ) {script : List (ℤ × ServerEvent Socket)}
    {f : List (SocketTick Socket) × SocketServer Socket → γ} {v : γ}
    (h : (History.replay (SocketServer.play verify) (.initial clock) script).map f = some v) :
    ∃ tr s, SocketRun verify tr s ∧ tr.map (fun i => (i.now, i.event)) = script ∧
      f (tr, s) = v := by
  obtain ⟨⟨tr, s⟩, hreplay, hv⟩ := Option.map_eq_some_iff.mp h
  have hstart : SocketRun verify [] (SocketServer.initial clock : SocketServer Socket) :=
    .start ⟨clock, rfl⟩
  have hstep : ∀ (s : SocketServer Socket) event i s', s.play verify event = some (i, s') →
      (i.before = s ∧ s.clock ≤ i.now ∧ s.next verify i.now i.event = some (s', i.replies)) ∧
        (i.now, i.event) = event := fun _ _ _ _ hplay => SocketServer.play_eq_some hplay
  exact ⟨tr, s,
    History.of_replay (fun s event i s' hplay => (hstep s event i s' hplay).1) hstart hreplay,
    History.map_of_replay (fun s event i s' hplay => (hstep s event i s' hplay).2) hreplay, hv⟩

end UrithiBidz
