import UrithiBidz.Server.Socket

/-!
# Replayed proofs

A proof that a socket holds the key of an address must not be good a second time, or whoever has
seen it could use it as well. A proof over a nonce of the server is not: the nonce is deleted
before the signature is looked at, and the next one is different
(`UrithiBidz.SocketRun.succeeds_once`). A proof that is judged by its time is
(`UrithiBidz.SocketTick.JudgedByTime`): nothing remembers it, and as long as the time is near and
nobody asks for a nonce, it is as good as the first time (`UrithiBidz.SocketRun.exists_again`). The
requests of the backend remember such times; the sockets do not.
-/

namespace UrithiBidz

variable {Socket : Type} {verify : Native → String → Native → Bool} {now : ℤ}
  {address message signature : Native}

/-! ### Proofs and nonces -/

/-- A proof leads to `auth:success`. -/
def SocketTick.Succeeds (i : SocketTick Socket) (address message signature : Native) : Prop :=
  ∃ socket payload, i.event = .socket socket (.authenticate payload) ∧
    payload.prop "address" = address ∧ payload.prop "message" = message ∧
      payload.prop "signature" = signature ∧
        ("auth:success", .object [("address", address)]) ∈ i.replies

/-- **A proof is judged by its time, and is good**: no nonce of the server is kept for its address,
the time is near and the signature is right. -/
def SocketTick.JudgedByTime (verify : Native → String → Native → Bool) (i : SocketTick Socket)
    (address message signature : Native) : Prop :=
  ∃ socket payload text nonceMs, i.event = .socket socket (.authenticate payload) ∧
    payload.prop "address" = address ∧ payload.prop "message" = message ∧
      payload.prop "signature" = signature ∧ message = .string text ∧
        i.before.serverNonces address = none ∧ nonceTimestamp (nonceOf text) = some nonceMs ∧
          ¬NonceExpired i.now nonceMs ∧ verify address text signature = true

/-- The nonce that is handed out, if one is. -/
def SocketTick.issued (i : SocketTick Socket) : Option String :=
  match i.event with
  | .socket _ (.requestNonce payload uuid) =>
    if (payload.prop "address").truthy then some uuid else none
  | _ => none

variable [DecidableEq Socket] {tr past : List (SocketTick Socket)} {s s' : SocketServer Socket}
  {i : SocketTick Socket}

/-! ### At most once -/

/-- **A nonce that is kept was kept before, or it is handed out now**, for an address that can be
found again. -/
theorem SocketTick.kept_or_issued (hnext : s.next verify i.now i.event = some (s', i.replies))
    {x : Native} {entry : ServerNonce} (hx : s'.serverNonces x = some entry) :
    s.serverNonces x = some entry ∨ x.same x = true ∧ i.issued = some entry.nonce := by
  rcases SocketServer.serverNonces_of_next hnext x with hsame | hnone |
    ⟨socket, payload, uuid, hevent, haddress, hsame, hnew⟩
  · exact Or.inl (hsame ▸ hx)
  · rw [hnone] at hx
    cases hx
  · rw [← Option.some.inj (hnew.symm.trans hx)]
    refine Or.inr ⟨?_, by simp only [issued, hevent, haddress, if_true]⟩
    have hself := hsame
    rw [← Native.eq_of_same hsame] at hself
    exact hself

/-- **The nonces that are kept have been handed out.** -/
theorem SocketRun.issued (h : SocketRun verify tr s) : ∀ x entry, s.serverNonces x = some entry →
    x.same x = true ∧ entry.nonce ∈ tr.filterMap SocketTick.issued := by
  induction h with
  | start hs =>
    obtain ⟨clock, rfl⟩ := hs
    intro x entry hx
    cases hx
  | @snoc tr s s' i h hs ih =>
    obtain ⟨-, -, hnext⟩ := hs
    intro x entry hx
    rw [List.filterMap_append, List.mem_append]
    rcases SocketTick.kept_or_issued hnext hx with hkept | ⟨hself, hissued⟩
    · obtain ⟨hself, hmem⟩ := ih x entry hkept
      exact ⟨hself, Or.inl hmem⟩
    · exact ⟨hself, Or.inr (List.mem_filterMap.mpr ⟨i, List.mem_singleton_self i, hissued⟩)⟩

/-- **How a proof succeeds**: a nonce of the server is used up, or it is judged by its time, and
nothing changes. -/
theorem SocketTick.Succeeds.judged (h : i.Succeeds address message signature)
    (hbefore : i.before = s) (hnext : s.next verify i.now i.event = some (s', i.replies)) :
    (∃ text entry, message = .string text ∧ s.serverNonces address = some entry ∧
      nonceOf text = entry.nonce ∧ s'.serverNonces = s.serverNonces.put address none) ∨
      (i.JudgedByTime verify address message signature ∧ s'.serverNonces = s.serverNonces) := by
  obtain ⟨socket, payload, hevent, rfl, rfl, rfl, hsuccess⟩ := h
  have hfirst := hnext
  rw [hevent] at hfirst
  obtain ⟨hmeets, hnonces, -⟩ := SocketServer.eq_of_success hfirst hsuccess
  rcases verifyStellarSignature_eq_true hmeets.valid with
    ⟨text, entry, hm, hnonce, hsame, -, -, hused⟩ |
    ⟨text, nonceMs, hm, hnone, htime, hgood, hverify, hsame⟩
  · exact Or.inl ⟨text, entry, hm, hnonce, hsame, hnonces.trans hused⟩
  · rw [← hbefore] at hnone
    exact Or.inr ⟨⟨socket, payload, text, nonceMs, hevent, rfl, rfl, rfl, hm, hnone, htime, hgood,
      hverify⟩, hnonces.trans hsame⟩

/-- A proof is spent when its nonce has been handed out and is not kept any more. -/
def SocketServer.Spent (s : SocketServer Socket) (tr : List (SocketTick Socket))
    (address message : Native) : Prop :=
  ∃ text, message = .string text ∧ nonceOf text ∈ tr.filterMap SocketTick.issued ∧
    ∀ entry, s.serverNonces address = some entry → entry.nonce ≠ nonceOf text

/-- **A proof succeeds at most once**, in every run in which it is never judged by its time, and no
nonce is handed out twice. -/
theorem SocketRun.succeeds_once (h : SocketRun verify tr s)
    (huuid : (tr.filterMap SocketTick.issued).Nodup)
    (hchallenged : ∀ i ∈ tr, ¬i.JudgedByTime verify address message signature) :
    tr.Pairwise fun i j => i.Succeeds address message signature →
      ¬j.Succeeds address message signature := by
  refine History.once (fun tr s => s.Spent tr address message) h ?_ ?_
  · rintro past t i t' hpast ⟨hbefore, -, hnext⟩ hpre hsucceeds
    rcases hsucceeds.judged hbefore hnext with
      ⟨text, entry, hm, hnonce, hsame, hused⟩ | ⟨htimed, -⟩
    · -- a success by nonce takes the nonce out of its slot
      obtain ⟨hself, hmem⟩ := SocketRun.issued hpast address entry hnonce
      constructor
      · rintro ⟨text', hm', -, hother⟩
        obtain rfl := Native.string.inj (hm.symm.trans hm')
        exact hother entry hnonce hsame.symm
      · refine ⟨text, hm, ?_, fun entry' hentry' => ?_⟩
        · rw [List.filterMap_append, hsame]
          exact List.mem_append_left _ hmem
        · rw [hused, ServerNonces.put, if_pos hself] at hentry'
          cases hentry'
    · -- a success by time leaves no trace, which is why it is excluded
      exact absurd htimed (hchallenged i (hpre.subset (by simp)))
  · rintro past t i t' hpast ⟨-, -, hnext⟩ hpre ⟨text, hm, hmem, hother⟩
    refine ⟨text, hm, ?_, fun entry hentry => ?_⟩
    · rw [List.filterMap_append]
      exact List.mem_append_left _ hmem
    · rcases SocketTick.kept_or_issued hnext hentry with hkept | ⟨-, hissued⟩
      · exact hother entry hkept
      · -- a new nonce is different from all before
        have hdifferent := (hpre.sublist.filterMap SocketTick.issued).nodup huuid
        rw [List.filterMap_append, List.nodup_append'] at hdifferent
        intro hold
        exact hdifferent.2.2 (hold ▸ hmem)
          (List.mem_filterMap.mpr ⟨i, List.mem_singleton_self i, hissued⟩)

/-! ### And again -/

/-- **A proof that is judged by its time succeeds again**, sent once more by the same client. -/
theorem SocketRun.exists_again (h : SocketRun verify (past ++ [i]) s)
    (hsucceeds : i.Succeeds address message signature)
    (htimed : i.JudgedByTime verify address message signature) :
    ∃ j s', SocketRun verify (past ++ [i] ++ [j]) s' ∧ j.event = i.event ∧
      j.Succeeds address message signature := by
  obtain ⟨t, -, rfl, -, hnext⟩ := h.of_snoc
  have hsame : s.serverNonces = i.before.serverNonces := by
    rcases hsucceeds.judged rfl hnext with ⟨text, entry, -, hnonce, -⟩ | ⟨-, hsame⟩
    · obtain ⟨-, -, -, -, -, -, -, -, -, hnone, -⟩ := htimed
      rw [hnone] at hnonce
      cases hnonce
    · exact hsame
  obtain ⟨socket, payload, hevent, rfl, rfl, rfl, hsuccess⟩ := hsucceeds
  have hfirst := hnext
  rw [hevent] at hfirst
  obtain ⟨hmeets, -, hconnected⟩ := SocketServer.eq_of_success hfirst hsuccess
  have hagain : SocketServer.AcceptsProof verify i.now s socket payload := by
    refine ⟨by rw [hconnected]; exact hmeets.connected, hmeets.complete, ?_⟩
    rw [hsame]
    exact hmeets.valid
  obtain ⟨s', hs'⟩ := hagain.success
  rw [← hevent] at hs'
  have hclock := SocketServer.clock_of_next hnext
  exact ⟨⟨s, i.now, i.event, _⟩, s', h.snoc ⟨rfl, hclock.le, hs'⟩, rfl, socket, payload, hevent,
    rfl, rfl, rfl, List.mem_singleton_self _⟩

namespace Stage

/-- Signatures of the account GA, in a hand that is easily read. -/
def legible (address : Native) (message : String) (signature : Native) : Bool :=
  address.text = "GA" && signature.text = "GA signs " ++ message

/-- What this account sends as a proof. -/
def proof (message : String) : Native :=
  .object [("address", .string "GA"), ("signature", .string ("GA signs " ++ message)),
    ("message", .string message)]

/-- A server with one client. -/
def oneClient (clock : ℤ) : SocketServer ℕ :=
  (SocketServer.handle legible clock (.initial clock) 0 .connection).1

/-- The client connects. -/
def arrival (clock : ℤ) : SocketTick ℕ := ⟨.initial clock, clock, .socket 0 .connection, []⟩

theorem socketRun_arrival (clock : ℤ) :
    SocketRun legible ([] ++ [arrival clock]) (oneClient clock) :=
  .snoc (.start ⟨clock, rfl⟩) ⟨rfl, le_refl _, rfl⟩

/-- It asks for a nonce. -/
def request (clock : ℤ) : SocketTick ℕ :=
  ⟨oneClient clock, clock, .socket 0 (.requestNonce (.object [("address", .string "GA")]) "4e-2"),
    [("auth:nonce", .object [("nonce", .string "4e-2"),
      ("message", .string (String.ofList authPrefix ++ "4e-2"))])]⟩

/-- The server has handed one out. -/
def oneNonce (clock : ℤ) : SocketServer ℕ :=
  { oneClient clock with
    serverNonces := (oneClient clock).serverNonces.put (.string "GA")
      (some ⟨"4e-2", clock + authNonceMaxAgeMs⟩) }

theorem socketRun_request (clock : ℤ) :
    SocketRun legible ([] ++ [arrival clock] ++ [request clock]) (oneNonce clock) :=
  (socketRun_arrival clock).snoc ⟨rfl, le_refl _, rfl⟩

end Stage

/-- The theorem at a nonce of the server that is signed at once. -/
theorem succeeds_once_request : ∃ (tr : List (SocketTick ℕ)) (s : SocketServer ℕ),
    SocketRun Stage.legible tr s ∧ tr.length = 3 ∧
      (∃ i ∈ tr, i.Succeeds (.string "GA") (.string "stellar-urithi-bidz-auth:4e-2")
        (.string "GA signs stellar-urithi-bidz-auth:4e-2")) ∧
      tr.Pairwise fun i j =>
        i.Succeeds (.string "GA") (.string "stellar-urithi-bidz-auth:4e-2")
          (.string "GA signs stellar-urithi-bidz-auth:4e-2") →
        ¬j.Succeeds (.string "GA") (.string "stellar-urithi-bidz-auth:4e-2")
          (.string "GA signs stellar-urithi-bidz-auth:4e-2") := by
  have hmeets : SocketServer.AcceptsProof Stage.legible 0 (Stage.oneNonce 0) 0
      (Stage.proof "stellar-urithi-bidz-auth:4e-2") :=
    ⟨rfl, by decide +kernel, by decide +kernel⟩
  obtain ⟨s, hs⟩ := hmeets.success
  let i : SocketTick ℕ := ⟨Stage.oneNonce 0, 0,
    .socket 0 (.authenticate (Stage.proof "stellar-urithi-bidz-auth:4e-2")),
    [("auth:success", .object [("address", .string "GA")])]⟩
  have hrun : SocketRun Stage.legible ([] ++ [Stage.arrival 0] ++ [Stage.request 0] ++ [i]) s :=
    (Stage.socketRun_request 0).snoc ⟨rfl, le_refl _, hs⟩
  refine ⟨_, s, hrun, rfl, ⟨_, List.mem_append_right _ (List.mem_singleton_self _), 0, _, rfl, rfl,
    rfl, rfl, List.mem_singleton_self _⟩, SocketRun.succeeds_once hrun ?_ fun j hj htimed => ?_⟩
  · exact List.nodup_singleton "4e-2"
  · obtain ⟨socket, payload, text, nonceMs, hevent, -, -, -, -, hnone, -⟩ := htimed
    simp only [List.nil_append, List.cons_append, List.mem_cons, List.not_mem_nil, or_false] at hj
    rcases hj with rfl | rfl | rfl
    · cases hevent
    · cases hevent
    · cases hnone

/-- **A proof over a time succeeds twice.** -/
theorem exists_reused : ¬∀ (tr : List (SocketTick ℕ)) (s : SocketServer ℕ),
    SocketRun Stage.legible tr s → (tr.filterMap SocketTick.issued).Nodup →
      ∀ address message signature, tr.Pairwise fun i j =>
        i.Succeeds address message signature → ¬j.Succeeds address message signature := by
  intro hclaim
  have hmeets : SocketServer.AcceptsProof Stage.legible 1700000000000
      (Stage.oneClient 1700000000000) 0 (Stage.proof "stellar-urithi-bidz-auth:1700000000000") :=
    ⟨rfl, by decide +kernel, by decide +kernel⟩
  obtain ⟨s, hs⟩ := hmeets.success
  let i : SocketTick ℕ := ⟨Stage.oneClient 1700000000000, 1700000000000,
    .socket 0 (.authenticate (Stage.proof "stellar-urithi-bidz-auth:1700000000000")),
    [("auth:success", .object [("address", .string "GA")])]⟩
  have hrun : SocketRun Stage.legible ([] ++ [Stage.arrival 1700000000000] ++ [i]) s :=
    (Stage.socketRun_arrival 1700000000000).snoc ⟨rfl, le_refl _, hs⟩
  have hfirst : i.Succeeds (.string "GA") (.string "stellar-urithi-bidz-auth:1700000000000")
      (.string "GA signs stellar-urithi-bidz-auth:1700000000000") :=
    ⟨0, _, rfl, rfl, rfl, rfl, List.mem_singleton_self _⟩
  -- without a nonce the message is judged by its time
  have htimed : i.JudgedByTime Stage.legible (.string "GA")
      (.string "stellar-urithi-bidz-auth:1700000000000")
      (.string "GA signs stellar-urithi-bidz-auth:1700000000000") :=
    ⟨0, _, "stellar-urithi-bidz-auth:1700000000000", 1700000000000, rfl, rfl, rfl, rfl, rfl, rfl,
      by decide +kernel, by decide +kernel, by decide +kernel⟩
  obtain ⟨j, s', hagain, hevent, hsecond⟩ := SocketRun.exists_again hrun hfirst htimed
  have hissued : ([] ++ [Stage.arrival 1700000000000] ++ [i] ++ [j]).filterMap
      SocketTick.issued = [] := by
    refine List.filterMap_eq_nil_iff.mpr fun k hk => ?_
    simp only [List.nil_append, List.cons_append, List.mem_cons, List.not_mem_nil, or_false] at hk
    rcases hk with rfl | rfl | rfl
    · rfl
    · rfl
    · simp only [SocketTick.issued, hevent]
  have hpairs := hclaim _ s' hagain (by rw [hissued]; exact List.nodup_nil) (.string "GA")
    (.string "stellar-urithi-bidz-auth:1700000000000")
    (.string "GA signs stellar-urithi-bidz-auth:1700000000000")
  exact (List.pairwise_append.mp hpairs).2.2 _ (List.mem_append_right _ (List.mem_singleton_self _))
    j (List.mem_singleton_self _) hfirst hsecond

end UrithiBidz
