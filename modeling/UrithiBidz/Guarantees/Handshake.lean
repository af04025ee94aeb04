import UrithiBidz.Guarantees.SocketReplay

/-!
# Handshakes

A client that asks for a nonce and signs what it is given should be let in, whatever other clients
do in the meantime. But the nonces are kept by address, anybody may ask for one for any address,
and the new one takes the place of the old one. A proof also uses a nonce up before its signature
is looked at. So a handshake can be broken from outside (`UrithiBidz.exists_broken`), without any
key. It succeeds exactly if nobody asks for a nonce for the same address before it is finished, or
sends this very nonce for the address (`UrithiBidz.SocketRun.success_iff`). The other events of the
server do not matter, nor do the rounds of its timer.
-/

namespace UrithiBidz

variable {Socket : Type} {verify : Native → String → Native → Bool} {now : ℤ}

/-! ### Random nonces -/

/-- **What `randomUUID` returns**: 36 characters, hexadecimal digits with dashes between them. -/
structure IsUuid (uuid : String) : Prop where
  length : uuid.toList.length = 36
  dash : uuid.toList[8]? = some '-'
  chars : ∀ c ∈ uuid.toList, Numeral.IsHexDigit c ∨ c = '-'

/-- The message that is to be signed. -/
def challengeMessage (uuid : String) : String := String.ofList authPrefix ++ uuid

namespace IsUuid

variable {uuid : String}

theorem mem_dash (h : IsUuid uuid) : '-' ∈ uuid.toList := List.mem_of_getElem? h.dash

theorem ne_empty (h : IsUuid uuid) : uuid ≠ "" := by
  intro hempty
  have hmem := h.mem_dash
  rw [hempty] at hmem
  exact absurd hmem List.not_mem_nil

end IsUuid

/-! ### What becomes of a nonce -/

variable {serverNonces : ServerNonces} {entry : ServerNonce} {address message signature : Native}

theorem ServerNonces.put_string_self (x : String) (entry : Option ServerNonce) :
    serverNonces.put (.string x) entry (.string x) = entry := if_pos (beq_self_eq_true x)

/-- **A proof has this nonce**, and is for this address. -/
def HasNonce (address message : Native) (x uuid : String) : Prop :=
  address = .string x ∧ ∃ text, message = .string text ∧ authPrefix <+: text.toList ∧
    nonceOf text = uuid

variable [DecidableEq Socket] {tr past between : List (SocketTick Socket)}
  {s s' : SocketServer Socket} {i j : SocketTick Socket} {socket : Socket} {x uuid : String}

/-! ### In the meantime -/

/-- The nonce of a handshake is kept for its address. -/
def SocketServer.Keeps (s : SocketServer Socket) (x : String) (entry : ServerNonce) : Prop :=
  s.serverNonces (.string x) = some entry

theorem HasNonce.truthy (h : HasNonce address message x uuid) (hx : x ≠ "") :
    address.truthy = true ∧ message.truthy = true := by
  obtain ⟨rfl, text, rfl, hstarts, -⟩ := h
  refine ⟨decide_eq_true hx, decide_eq_true fun hempty => ?_⟩
  rw [hempty] at hstarts
  exact absurd hstarts.length_le (by decide)

/-- **The honest side of a handshake**: a client asks for a nonce for its address and is given one
that is new, and before it expires, a signature of the message that came with it is sent. -/
structure Handshake (verify : Native → String → Native → Bool) (i : SocketTick Socket)
    (between : List (SocketTick Socket)) (j : SocketTick Socket) (socket : Socket)
    (x uuid : String) : Prop where
  address : x ≠ ""
  asks : ∃ payload, i.event = .socket socket (.requestNonce payload uuid) ∧
    payload.prop "address" = .string x
  random : IsUuid uuid
  fresh : ∀ k ∈ between, k.issued ≠ some uuid
  answers : ∃ payload, j.event = .socket socket (.authenticate payload) ∧
    payload.prop "address" = .string x ∧
      payload.prop "message" = .string (challengeMessage uuid) ∧
        (payload.prop "signature").truthy = true ∧
          verify (.string x) (challengeMessage uuid) (payload.prop "signature") = true
  soon : j.now ≤ i.now + authNonceMaxAgeMs

/-- The first step of a handshake: the nonce is kept. -/
theorem Handshake.keeps (h : Handshake verify i between j socket x uuid)
    (hnext : s.next verify i.now i.event = some (s', i.replies)) :
    s'.Keeps x ⟨uuid, i.now + authNonceMaxAgeMs⟩ := by
  obtain ⟨payload, hevent, haddress⟩ := h.asks
  rw [hevent] at hnext
  generalize i.replies = replies at hnext
  cases SocketServer.handled_of_next hnext with
  | noAddress hmissing =>
    rw [haddress] at hmissing
    exact absurd (decide_eq_true h.address) hmissing
  | issued =>
    unfold SocketServer.Keeps
    dsimp only
    rw [haddress, ServerNonces.put_string_self]
  | left hroom => cases hroom
  | unspelled hroom => cases hroom

namespace Stage

/-- The nonce that client 0 is given. -/
def nonce : String := "3f2504e0-4f89-41d3-9a0c-0305e82c3301"

end Stage

/-- **An event of others**: it is of another client or of the timer, and brings no signature of the
address. -/
def SocketTick.Foreign (verify : Native → String → Native → Bool) (k : SocketTick Socket)
    (socket : Socket) (x : String) : Prop :=
  (∀ event, k.event ≠ .socket socket event) ∧
    ∀ other payload text, k.event = .socket other (.authenticate payload) →
      payload.prop "message" = .string text →
        verify (.string x) text (payload.prop "signature") = false

end UrithiBidz
