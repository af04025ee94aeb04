import Mathlib.Logic.Function.Basic
import UrithiBidz.Library.Fallible
import UrithiBidz.Library.History
import UrithiBidz.Server.Challenge

/-!
# Signed requests

A request that changes something has to be signed (`middleware/auth.ts`). The address is read
from a field of the body, the message and the signature from two headers, and the middleware
either answers with an error or passes the request on. Pairs of an address and a nonce that have
passed are remembered in a cache, with the time of their use, and a timer throws out what is
older than five minutes.

`UrithiBidz.stellarAuthMiddleware` is the middleware, with the verification of signatures as a
parameter, and `UrithiBidz.stellarAuthMiddleware_eq_ok_iff` says when a request passes.
`UrithiBidz.AuthRun` is the life of a server: requests through the middleware of any field, and
rounds of the timer, in any order.
-/

namespace UrithiBidz

/-- The cache: when a pair, spelled as one text, was used. -/
abbrev SeenNonces := String → Option ℤ

/-- A round of the timer: what is too old is thrown out. -/
def cleanupNonces (now : ℤ) (seenNonces : SeenNonces) : SeenNonces := fun key =>
  (seenNonces key).filter fun timestamp => ¬authNonceMaxAgeMs < now - timestamp

/-- What the middleware reads of a request: the body and two headers. -/
structure AuthRequest where
  body : Native
  signature : Option String
  message : Option String

/-- The address and the nonce as one text. -/
def replayKey (address nonce : String) : String := address ++ ":" ++ nonce

/-- The middleware for a field of the body: the cache when the request has passed, or the error
that it is answered with. Each of them comes with status 401, except for an address that cannot be
spelled, which throws. -/
def stellarAuthMiddleware (verify : Native → String → String → Bool) (addressField : String)
    (now : ℤ) (request : AuthRequest) (seenNonces : SeenNonces) : Except String SeenNonces := do
  let address := request.body.prop addressField
  let signature := request.signature.getD ""
  let message := request.message.getD ""
  ensure (address.truthy ∧ signature ≠ "" ∧ message ≠ "")
    "Missing Stellar authentication headers or body address field"
  ensure (authPrefix <+: message.toList) "Invalid auth message format"
  let nonce := nonceOf message
  ensure (nonce ≠ "") "Auth message missing nonce"
  let nonceMs ← unwrapOr "Invalid auth nonce format — expected timestamp" (nonceTimestamp nonce)
  ensure (¬NonceExpired now nonceMs) "Authentication nonce expired"
  let addressText ← unwrapOr "Cannot convert object to primitive value" address.template
  let key := replayKey addressText nonce
  ensure (seenNonces key = none) "Authentication nonce already used"
  ensure (verify address message signature) "Invalid Stellar signature"
  return Function.update seenNonces key (some now)

/-! ### When a request passes -/

/-- The address that a request claims. -/
def AuthRequest.address (request : AuthRequest) (addressField : String) : Native :=
  request.body.prop addressField

/-- The nonce that it brings. -/
def AuthRequest.nonce (request : AuthRequest) : String := nonceOf (request.message.getD "")

/-- **What a request has to meet.** -/
structure AcceptsRequest (verify : Native → String → String → Bool) (addressField : String)
    (now : ℤ) (request : AuthRequest) (seenNonces : SeenNonces) (address : String) : Prop where
  complete : (request.address addressField).truthy ∧ request.signature.getD "" ≠ "" ∧
    request.message.getD "" ≠ ""
  signed_prefix : authPrefix <+: (request.message.getD "").toList
  nonce : request.nonce ≠ ""
  fresh : ∃ nonceMs, nonceTimestamp request.nonce = some nonceMs ∧ ¬NonceExpired now nonceMs
  spelled : (request.address addressField).template = some address
  unseen : seenNonces (replayKey address request.nonce) = none
  signature : verify (request.address addressField) (request.message.getD "")
    (request.signature.getD "") = true

variable {verify : Native → String → String → Bool} {addressField : String} {now : ℤ}
  {request : AuthRequest} {seenNonces seen' : SeenNonces}

/-- **A request passes exactly if it meets them**, and its pair is remembered. -/
theorem stellarAuthMiddleware_eq_ok_iff :
    stellarAuthMiddleware verify addressField now request seenNonces = .ok seen' ↔
      ∃ address, AcceptsRequest verify addressField now request seenNonces address ∧
        seen' = Function.update seenNonces (replayKey address request.nonce) (some now) := by
  simp only [stellarAuthMiddleware, ensure_bind_eq_ok_iff, unwrapOr_bind_eq_ok_iff,
    Except.pure_eq_ok_iff]
  constructor
  · rintro ⟨h₁, h₂, h₃, nonceMs, h₄, h₅, address, h₆, h₇, h₈, rfl⟩
    exact ⟨address, ⟨h₁, h₂, h₃, ⟨nonceMs, h₄, h₅⟩, h₆, h₇, h₈⟩, rfl⟩
  · rintro ⟨address, ⟨h₁, h₂, h₃, ⟨nonceMs, h₄, h₅⟩, h₆, h₇, h₈⟩, rfl⟩
    exact ⟨h₁, h₂, h₃, nonceMs, h₄, h₅, address, h₆, h₇, h₈, rfl⟩

/-! ### The life of a server -/

/-- What happens to the cache. -/
inductive AuthEvent
  /-- A request comes, to a route whose address is in a field. -/
  | request (addressField : String) (request : AuthRequest)
  /-- The timer makes a round. -/
  | cleanup

/-- The cache, and the time of the last event. -/
structure AuthServer where
  clock : ℤ
  seenNonces : SeenNonces

/-- An event, with its time and the cache before it. -/
structure AuthTick where
  before : SeenNonces
  now : ℤ
  event : AuthEvent

/-- The cache after an event. -/
def AuthTick.after (verify : Native → String → String → Bool) (i : AuthTick) : SeenNonces :=
  match i.event with
  | .request addressField request =>
    match stellarAuthMiddleware verify addressField i.now request i.before with
    | .ok seen' => seen'
    | .error _ => i.before
  | .cleanup => cleanupNonces i.now i.before

/-- The pair passes in the event: the address as it is spelled, and the nonce. -/
def AuthTick.Passes (verify : Native → String → String → Bool) (i : AuthTick)
    (address nonce : String) : Prop :=
  ∃ addressField request seen', i.event = .request addressField request ∧
    stellarAuthMiddleware verify addressField i.now request i.before = .ok seen' ∧
      (request.address addressField).template = some address ∧ request.nonce = nonce

/-- **The life of a server**: the cache is empty when it starts, and the clock does not go back. -/
abbrev AuthRun (verify : Native → String → String → Bool) : List AuthTick → AuthServer → Prop :=
  History (fun s => s.seenNonces = fun _ => none) fun s i s' =>
    i.before = s.seenNonces ∧ s.clock ≤ i.now ∧ s' = ⟨i.now, i.after verify⟩

theorem AuthTick.Passes.seen {i : AuthTick} {address nonce : String}
    (h : i.Passes verify address nonce) :
    i.before (replayKey address nonce) = none ∧
      (i.after verify) (replayKey address nonce) = some i.now ∧
        ∃ nonceMs, nonceTimestamp nonce = some nonceMs ∧ ¬NonceExpired i.now nonceMs := by
  obtain ⟨addressField, request, seen', hevent, hok, haddress, rfl⟩ := h
  obtain ⟨address', hmeets, rfl⟩ := stellarAuthMiddleware_eq_ok_iff.mp hok
  obtain rfl := Option.some.inj (haddress.symm.trans hmeets.spelled)
  refine ⟨hmeets.unseen, ?_, hmeets.fresh⟩
  simp only [after, hevent, hok, Function.update_self]

/-- What is in the cache stays there, except when the timer throws it out. -/
theorem AuthTick.after_of_seen {i : AuthTick} {key : String} {timestamp : ℤ}
    (h : i.before key = some timestamp) : (i.after verify key).isSome ∨
      (i.event = .cleanup ∧ authNonceMaxAgeMs < i.now - timestamp) := by
  unfold after
  rcases hevent : i.event with ⟨addressField, request⟩ | _
  · left
    rcases hok : stellarAuthMiddleware verify addressField i.now request i.before with _ | seen'
    · simp only [hok]
      rw [h]
      rfl
    · obtain ⟨address, -, rfl⟩ := stellarAuthMiddleware_eq_ok_iff.mp hok
      simp only [hok]
      by_cases hkey : key = replayKey address request.nonce
      · rw [hkey, Function.update_self]
        rfl
      · rw [Function.update_of_ne hkey, h]
        rfl
  · by_cases hold : authNonceMaxAgeMs < i.now - timestamp
    · exact Or.inr ⟨rfl, hold⟩
    · left
      dsimp only
      rw [cleanupNonces, h, Option.filter_some, if_pos (by simpa using hold)]
      rfl

end UrithiBidz
