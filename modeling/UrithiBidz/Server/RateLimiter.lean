import Mathlib.Logic.Function.Basic
import UrithiBidz.Indexer.Native
import UrithiBidz.Library.History
import UrithiBidz.Library.SlidingWindow

/-!
# Rate limiters

Requests to the backend pass through rate limiters (`middleware/rateLimiter.ts`), each of which
lets a number of requests of a client pass in a window of time. Every request passes the default
limiter, and those that create an auction or place a bid pass the strict one as well. All limiters
keep the times of the requests in one store, by the key of the client.

`UrithiBidz.RateLimitConfig.handle` is what a limiter does with a request, and
`UrithiBidz.RateServer.next` is what any of the limiters, or the timer, does to the store. The
limiters are a family over any type, and so are the runs.
-/

namespace UrithiBidz

/-! ### Limiters -/

/-- What a limiter reads of a request. The header may be missing, and may come as a list. -/
structure RateRequest where
  forwarded : Option (String ⊕ List String)
  ip : Option String
  remoteAddress : Option String
  deriving DecidableEq

/-- The first address that is forwarded, or the one that the request comes from. -/
def defaultKeyGenerator (req : RateRequest) : String :=
  match req.forwarded with
  | some (.inl forwarded) => String.ofList (trim (forwarded.toList.takeWhile (· ≠ ',')))
  | _ => (req.ip.orElse fun _ => req.remoteAddress).getD "unknown"

/-- The configuration of a limiter. -/
structure RateLimitConfig where
  maxRequests : ℤ
  windowMs : ℤ
  keyGenerator : RateRequest → String

/-- What may be left out of a configuration. -/
structure PartialRateLimitConfig where
  maxRequests : Option ℤ
  windowMs : Option ℤ
  keyGenerator : Option (RateRequest → String)

/-- What stands for it then, as it is read from the environment of the process. -/
structure RateLimitDefaults where
  maxRequests : ℤ
  windowMs : ℤ

/-- The defaults if nothing is set: a hundred requests in a minute. -/
def RateLimitDefaults.unset : RateLimitDefaults := ⟨100, 60000⟩

/-- Make a limiter. -/
def createRateLimiter (defaults : RateLimitDefaults) (config : PartialRateLimitConfig) :
    RateLimitConfig where
  maxRequests := config.maxRequests.getD defaults.maxRequests
  windowMs := config.windowMs.getD defaults.windowMs
  keyGenerator := config.keyGenerator.getD defaultKeyGenerator

/-- The limiter of all requests. -/
def defaultRateLimiter (defaults : RateLimitDefaults) : RateLimitConfig :=
  createRateLimiter defaults ⟨none, none, none⟩

/-- The limiter of the requests that create an auction or place a bid. -/
def strictRateLimiter (defaults : RateLimitDefaults) : RateLimitConfig :=
  createRateLimiter defaults ⟨some 20, some 60000, none⟩

/-- The limiters of the backend. -/
inductive AppLimiter
  | default
  | strict
  deriving DecidableEq

/-- How they are made. -/
def appLimiters (defaults : RateLimitDefaults) : AppLimiter → RateLimitConfig
  | .default => defaultRateLimiter defaults
  | .strict => strictRateLimiter defaults

/-- The times of the requests that were let pass, by key. -/
abbrev RateStore := String → Option (List ℤ)

/-- What becomes of a request: it goes on, with some headers, or is answered. -/
inductive RateReply
  | next (headers : List (String × String))
  | refused (status : ℕ) (headers : List (String × String)) (error : String)
      (retryAfter : Option ℤ)
  deriving DecidableEq

/-- `String(n)`, where there may be no number. -/
def numberText (n : Option ℤ) : String := (n.map toString).getD "NaN"

/-- **What a limiter does with a request.** A limiter that lets nothing pass has no oldest request
to wait for. -/
def RateLimitConfig.handle (limiter : RateLimitConfig) (now : ℤ) (req : RateRequest)
    (store : RateStore) : RateStore × RateReply :=
  let key := limiter.keyGenerator req
  let timestamps := ((store key).getD []).filter fun t => now - t < limiter.windowMs
  if limiter.maxRequests ≤ timestamps.length then
    let retryAfterMs := timestamps.head?.map fun oldestInWindow =>
      limiter.windowMs - (now - oldestInWindow)
    let retryAfterSec := retryAfterMs.map fun ms => -(-ms / 1000)
    (Function.update store key (some timestamps),
      .refused 429
        [("Retry-After", numberText retryAfterSec),
          ("X-RateLimit-Limit", toString limiter.maxRequests),
          ("X-RateLimit-Remaining", "0")]
        "Too many requests. Please slow down." retryAfterSec)
  else
    let timestamps := timestamps ++ [now]
    (Function.update store key (some timestamps),
      .next
        [("X-RateLimit-Limit", toString limiter.maxRequests),
          ("X-RateLimit-Remaining", toString (limiter.maxRequests - timestamps.length))])

/-- A round of the timer. -/
def RateStore.cleanup (defaults : RateLimitDefaults) (now : ℤ) (store : RateStore) : RateStore :=
  fun key =>
    ((store key).map fun timestamps =>
      timestamps.filter fun t => now - t < defaults.windowMs).filter fun timestamps =>
        timestamps ≠ []

/-! ### The server -/

variable {ι : Type}

variable (ι) in
/-- What happens next: a request comes to one of the limiters, or the timer makes a round. -/
inductive RateEvent
  | request (limiter : ι) (req : RateRequest)
  | cleanup
  deriving DecidableEq

/-- The store, and the time of the last event. -/
structure RateServer where
  clock : ℤ
  store : RateStore

/-- The server when it has just been started. -/
def RateServer.initial (clock : ℤ) : RateServer := ⟨clock, fun _ => none⟩

/-- **What an event does**, and what becomes of the request, if it is one. -/
def RateServer.next (limiters : ι → RateLimitConfig) (defaults : RateLimitDefaults) (now : ℤ)
    (s : RateServer) : RateEvent ι → RateServer × Option RateReply
  | .request i req =>
    let (store, reply) := (limiters i).handle now req s.store
    (⟨now, store⟩, some reply)
  | .cleanup => (⟨now, s.store.cleanup defaults now⟩, none)

variable (ι) in
/-- An event, with its time and what became of the request. -/
structure RateTick where
  now : ℤ
  event : RateEvent ι
  reply : Option RateReply
  deriving DecidableEq

/-- **The life of a server**: the clock does not go back. -/
abbrev RateRun (limiters : ι → RateLimitConfig) (defaults : RateLimitDefaults) :
    List (RateTick ι) → RateServer → Prop :=
  History (fun s => ∃ clock, s = RateServer.initial clock) fun s e s' =>
    s.clock ≤ e.now ∧ s.next limiters defaults e.now e.event = (s', e.reply)

/-- Let an event happen, if its time has come. -/
def RateServer.play (limiters : ι → RateLimitConfig) (defaults : RateLimitDefaults)
    (s : RateServer) (event : ℤ × RateEvent ι) : Option (RateTick ι × RateServer) :=
  if s.clock ≤ event.1 then
    let (s', reply) := s.next limiters defaults event.1 event.2
    some (⟨event.1, event.2, reply⟩, s')
  else none

variable {limiters : ι → RateLimitConfig} {defaults : RateLimitDefaults}

/-- **Runs by evaluation**: whatever is read off a script of events is read off a run. -/
theorem RateRun.exists_of_play {γ : Type} (clock : ℤ) {script : List (ℤ × RateEvent ι)}
    {f : List (RateTick ι) × RateServer → γ} {v : γ}
    (h : (History.replay (RateServer.play limiters defaults) (.initial clock) script).map f =
      some v) : ∃ tr s, RateRun limiters defaults tr s ∧ f (tr, s) = v := by
  obtain ⟨⟨tr, s⟩, hreplay, hv⟩ := Option.map_eq_some_iff.mp h
  have hstart : RateRun limiters defaults [] (.initial clock) := .start ⟨clock, rfl⟩
  refine ⟨tr, s, History.of_replay (fun s event e s' hplay => ?_) hstart hreplay, hv⟩
  unfold RateServer.play at hplay
  split at hplay
  · next hclock =>
    cases hplay
    exact ⟨hclock, rfl⟩
  · cases hplay

end UrithiBidz
