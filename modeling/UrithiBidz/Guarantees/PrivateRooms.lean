import UrithiBidz.Guarantees.SocketReplay

/-!
# Private rooms

What concerns a bidder alone is sent to the room of the bidder, so nobody may be in it without the
key of the address. The server remembers for each socket the addresses it has proved to hold the
key of, and forgets them when the socket disconnects; a socket may join the room of a bidder whose
address it has proved (`UrithiBidz.SocketRun.authenticated`). The rooms of auctions are open, and
none of them is the room of a bidder, whatever comes in place of an id
(`UrithiBidz.auctionRoom_ne_bidderRoom`). So whoever is in the room of a bidder has proved to hold
the key, on the same connection (`UrithiBidz.SocketRun.privateRooms`).
-/

namespace UrithiBidz

variable {Socket : Type} {verify : Native → String → Native → Bool}

/-! ### Names of rooms -/

theorem auctionRoom_ne_bidderRoom (auctionId address : String) :
    auctionRoom auctionId ≠ bidderRoom address := by
  intro heq
  have hlist := congrArg String.toList heq
  simp only [auctionRoom, bidderRoom, String.toList_append] at hlist
  exact absurd (List.head_eq_of_cons_eq hlist) (by decide)

theorem bidderRoom_inj {address address' : String}
    (h : bidderRoom address = bidderRoom address') : address = address' := by
  have hlist := congrArg String.toList h
  simp only [bidderRoom, String.toList_append] at hlist
  exact String.toList_injective (List.append_cancel_left hlist)

/-! ### Proofs -/

/-- **A nonce is accepted** for an address: it is the one that the server has handed out for it, or,
if there is none, it begins with a time that is near. -/
def NonceAccepted (now : ℤ) (serverNonces : ServerNonces) (address : Native) (nonce : String) :
    Prop :=
  (∃ entry, serverNonces address = some entry ∧ nonce = entry.nonce ∧ ¬entry.expires < now) ∨
    (serverNonces address = none ∧
      ∃ nonceMs, nonceTimestamp nonce = some nonceMs ∧ ¬NonceExpired now nonceMs)

/-- **A socket proves to hold the key of an address**: behind the prefix, it signs a nonce that is
accepted. -/
def SocketTick.Proves (verify : Native → String → Native → Bool) (i : SocketTick Socket)
    (socket : Socket) (address : Native) : Prop :=
  ∃ payload text, i.event = .socket socket (.authenticate payload) ∧
    payload.prop "address" = address ∧ payload.prop "message" = .string text ∧
      (authPrefix <+: text.toList ∧ nonceOf text ≠ "") ∧
        NonceAccepted i.now i.before.serverNonces address (nonceOf text) ∧
          verify address text (payload.prop "signature") = true

/-- The client stays connected. -/
def SocketTick.Keeps (i : SocketTick Socket) (socket : Socket) : Prop :=
  i.event ≠ .socket socket .disconnect

variable [DecidableEq Socket] {tr : List (SocketTick Socket)} {s s' : SocketServer Socket}
  {i : SocketTick Socket} {socket : Socket}

omit [DecidableEq Socket] in
/-- What the server takes for a proof is one. -/
theorem SocketServer.AcceptsProof.proves {payload : Native}
    (h : SocketServer.AcceptsProof verify i.now i.before socket payload)
    (hevent : i.event = .socket socket (.authenticate payload)) :
    i.Proves verify socket (payload.prop "address") := by
  rcases verifyStellarSignature_eq_true h.valid with
    ⟨text, entry, hm, hnonce, hsame, hgood, hverify, -⟩ |
    ⟨text, nonceMs, hm, hnone, htime, hgood, hverify, -⟩
  · exact ⟨payload, text, hevent, rfl, hm, wellFormed_of_verify hm h.valid,
      Or.inl ⟨entry, hnonce, hsame, hgood⟩, hverify⟩
  · exact ⟨payload, text, hevent, rfl, hm, wellFormed_of_verify hm h.valid,
      Or.inr ⟨hnone, nonceMs, htime, hgood⟩, hverify⟩

/-- **The addresses of a socket are proved**, on the same connection. -/
theorem SocketRun.authenticated (h : SocketRun verify tr s) : ∀ x,
    s.authenticatedSockets socket x = true →
      History.Since (·.Proves verify socket x) (·.Keeps socket) tr := by
  induction h with
  | start hs =>
    obtain ⟨clock, rfl⟩ := hs
    intro x hx
    cases hx
  | @snoc tr s s' i h hs ih =>
    obtain ⟨rfl, -, hnext⟩ := hs
    intro x hx
    rcases SocketServer.authenticated_of_next hnext hx with ⟨hold, hkeeps⟩ |
      ⟨payload, hevent, rfl, hmeets⟩
    · exact (ih x hold).snoc hkeeps
    · exact History.Since.now (a := i) (hmeets.proves hevent) tr

/-- **The members of the rooms of bidders** have proved an address that is spelled like this. -/
theorem SocketRun.member_proved (h : SocketRun verify tr s) : ∀ address,
    s.rooms socket (bidderRoom address) = true →
      History.Since (fun i => ∃ x, x.template = some address ∧ i.Proves verify socket x)
        (·.Keeps socket) tr := by
  induction h with
  | start hs =>
    obtain ⟨clock, rfl⟩ := hs
    intro address hroom
    cases hroom
  | @snoc tr s s' i h hs ih =>
    obtain ⟨rfl, -, hnext⟩ := hs
    intro address hroom
    rcases SocketServer.rooms_of_next hnext hroom with ⟨hold, hkeeps⟩ |
      ⟨auctionId, text, -, -, hname⟩ | ⟨x, text, hevent, htext, hname, hproved⟩
    · exact (ih address hold).snoc hkeeps
    · exact absurd hname.symm (auctionRoom_ne_bidderRoom text address)
    · rw [← bidderRoom_inj hname] at htext
      have hsince := SocketRun.authenticated h x hproved
      exact (hsince.imp fun j hj => ⟨x, htext, hj⟩).snoc fun hcon => by
        rw [hevent] at hcon
        cases hcon

/-! ### Along a run -/

/-- **Rooms of bidders are private.** -/
structure PrivateRooms (verify : Native → String → Native → Bool)
    (tr : List (SocketTick Socket)) (s : SocketServer Socket) : Prop where
  /-- Whoever is in one has proved to hold the key of the address, and has not been disconnected
  since. -/
  proved : ∀ socket address, s.rooms socket (bidderRoom address) = true →
    History.Since (fun i => ∃ x, x.template = some address ∧ i.Proves verify socket x)
      (·.Keeps socket) tr
  /-- Nothing puts a socket into one, except that it joins the room itself. -/
  joined : ∀ now event s' replies, s.next verify now event = some (s', replies) →
    ∀ socket address, s.rooms socket (bidderRoom address) = false →
      s'.rooms socket (bidderRoom address) = true →
        ∃ x, event = .socket socket (.joinBidder x) ∧ x.template = some address

/-- **Private rooms need a signature**, in every run. -/
theorem SocketRun.privateRooms (h : SocketRun verify tr s) : PrivateRooms verify tr s where
  proved _ := SocketRun.member_proved h
  joined now event s' replies hnext socket address hout hin := by
    rcases SocketServer.rooms_of_next hnext hin with ⟨hold, -⟩ |
      ⟨auctionId, text, -, -, hname⟩ | ⟨x, text, hevent, htext, hname, -⟩
    · exact absurd (hout.symm.trans hold) Bool.false_ne_true
    · exact absurd hname.symm (auctionRoom_ne_bidderRoom text address)
    · rw [← bidderRoom_inj hname] at htext
      exact ⟨x, hevent, htext⟩

/-- Client 0 proves to hold the key of GA and joins the room, while client 1 only tries to. -/
def Stage.joining : List (ℤ × ServerEvent ℕ) :=
  [(1700000000000, .socket 0 .connection), (1700000000000, .socket 1 .connection),
    (1700000000000, .socket 0 (.authenticate (proof "stellar-urithi-bidz-auth:1700000000000"))),
    (1700000000000, .socket 0 (.joinBidder (.string "GA"))),
    (1700000000000, .socket 1 (.joinBidder (.string "GA")))]

/-- The theorem at these clients. -/
theorem privateRooms_joining : ∃ (tr : List (SocketTick ℕ)) (s : SocketServer ℕ),
    s.rooms 0 (bidderRoom "GA") = true ∧ s.rooms 1 (bidderRoom "GA") = false ∧
      PrivateRooms Stage.legible tr s := by
  have hplay : (History.replay (SocketServer.play Stage.legible) (.initial 1700000000000)
      Stage.joining).map (fun r => (r.2.rooms 0 (bidderRoom "GA"),
        r.2.rooms 1 (bidderRoom "GA"))) = some (true, false) := by decide +kernel
  obtain ⟨tr, s, hrun, -, hv⟩ := SocketRun.exists_of_play 1700000000000 hplay
  obtain ⟨hmember, hother⟩ := Prod.mk.inj hv
  exact ⟨tr, s, hmember, hother, hrun.privateRooms⟩

end UrithiBidz
