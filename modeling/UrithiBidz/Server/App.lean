import UrithiBidz.Server.Auth
import UrithiBidz.Server.RateLimiter
import UrithiBidz.Server.Routes

/-!
# The application

How the middleware is put together (`index.ts` and the two routes of `routes/auctions.ts` that
want a signature). Every request passes the default limiter. One that creates an auction or places
a bid passes the strict limiter as well, then its path and body are validated, then the signature
is checked, for the address that the body names, and only then is it answered. A refusal anywhere
ends it. All other routes read or simulate, and leave no trace: what they answer comes with the
request.

The state of the application is what its middleware remembers: the times of the limiters and the
pairs of address and nonce that have been used. Timers clean up both. `UrithiBidz.AppRun` is the
life of a server under requests and timers in any order, and the two parts of it are lives of the
limiters (`UrithiBidz.AppRun.rateRun`) and of the cache (`UrithiBidz.AppRun.authRun`).
-/

namespace UrithiBidz

/-! ### Requests -/

/-- What is asked. -/
inductive AppRoute
  /-- A route that reads or simulates: its answer. -/
  | read (answer : Response)
  /-- `POST /` -/
  | createAuction (body : Json)
  /-- `POST /:id/bids`, and what the database has by then. -/
  | placeBid (id : String) (body : Json) (getAuction : ℤ → Except String (Option AuctionRecord))

/-- The limiters on the way to a route. -/
def AppRoute.limiters : AppRoute → List AppLimiter
  | .read _ => [.default]
  | .createAuction _ => [.default, .strict]
  | .placeBid .. => [.default, .strict]

/-- A request: where it comes from, what it asks, and two headers. -/
structure AppRequest where
  rate : RateRequest
  signature : Option String
  message : Option String
  route : AppRoute

/-- What the middleware for signatures reads of a request whose body has been validated. Its
address is a text by then. -/
def AppRequest.auth (req : AppRequest) (addressField : String) (body : Json) : AuthRequest where
  body := .object [(addressField, match body.prop addressField with
    | .string address => .string address
    | _ => .undefined)]
  signature := req.signature
  message := req.message

/-! ### Answers -/

/-- The answer for a new auction. -/
def createAuctionAnswer (now : ℤ) (body : Json) : Response :=
  ⟨201, .object [("success", .bool true), ("data", .object [("id", .int now),
    ("message", .string "Auction creation validated. Submit on-chain transaction."),
    ("validated", body)])]⟩

/-- The answer for a bid. -/
def placeBidAnswer (getAuction : ℤ → Except String (Option AuctionRecord)) (params body : Json) :
    Response :=
  match unwrapOr "The id is not a number" (params.prop "id").toInt >>= getAuction with
  | .ok none => .failure 404 "Auction not found"
  | .ok (some _) =>
    ⟨201, .object [("success", .bool true), ("data", .object [("auction_id", params.prop "id"),
      ("message", .string "Bid validated. Submit on-chain transaction."), ("validated", body)])]⟩
  | .error _ => .failure 500 "Failed to place bid"

/-- Go on with what has been validated. -/
def validated (parse : Schema → Json → Schema.Outcome) (schema : Schema) (target : Json)
    (seenNonces : SeenNonces) (next : Json → Response × SeenNonces) : Response × SeenNonces :=
  (validate parse schema target fun parsed => (next parsed).1,
    match parse schema target with
    | .parsed parsed => (next parsed).2
    | _ => seenNonces)

/-- Go on if the signature is that of the address. -/
def authenticated (verify : Native → String → String → Bool) (addressField : String) (now : ℤ)
    (req : AppRequest) (body : Json) (seenNonces : SeenNonces) (answer : Response) :
    Response × SeenNonces :=
  match stellarAuthMiddleware verify addressField now (req.auth addressField body) seenNonces with
  | .ok seen' => (answer, seen')
  | .error error => (.failure 401 error, seenNonces)

/-- **The answer of a route**, behind the limiters, and the cache after it. -/
def AppRequest.answer (parse : Schema → Json → Schema.Outcome)
    (verify : Native → String → String → Bool) (now : ℤ) (req : AppRequest)
    (seenNonces : SeenNonces) : Response × SeenNonces :=
  match req.route with
  | .read answer => (answer, seenNonces)
  | .createAuction body =>
    validated parse createAuctionBodySchema body seenNonces fun body =>
      authenticated verify "seller" now req body seenNonces (createAuctionAnswer now body)
  | .placeBid id body getAuction =>
    validated parse auctionIdSchema (.object [("id", .string id)]) seenNonces fun params =>
      validated parse placeBidBodySchema body seenNonces fun body =>
        authenticated verify "bidder" now req body seenNonces
          (placeBidAnswer getAuction params body)

/-- The answer of a limiter that refuses. -/
def RateReply.response : RateReply → Option Response
  | .next _ => none
  | .refused status _ error retryAfter =>
    some ⟨status, .object [("success", .bool false), ("error", .string error),
      ("retryAfter", (retryAfter.map Json.int).getD .null)]⟩

/-- A request on its way through limiters, until one refuses: what is kept then, and what each has
said. -/
def passLimiters (limiters : AppLimiter → RateLimitConfig) (now : ℤ) (req : RateRequest) :
    List AppLimiter → RateStore → RateStore × List (AppLimiter × RateReply)
  | [], store => (store, [])
  | i :: rest, store =>
    match (limiters i).handle now req store with
    | (store, .next headers) =>
      let (store, replies) := passLimiters limiters now req rest store
      (store, (i, .next headers) :: replies)
    | (store, reply) => (store, [(i, reply)])

/-! ### The server -/

/-- What the middleware remembers, and the time of the last event. -/
structure AppServer where
  clock : ℤ
  store : RateStore
  seenNonces : SeenNonces

/-- The server when it has just been started. -/
def AppServer.initial (clock : ℤ) : AppServer := ⟨clock, fun _ => none, fun _ => none⟩

/-- What happens to it. -/
inductive AppEvent
  | request (req : AppRequest)
  /-- A round of the timer of the limiters. -/
  | rateCleanup
  /-- A round of the timer of the cache. -/
  | nonceCleanup

/-- An event, with what was remembered before it, its time, what the limiters have said and what
was answered. -/
structure AppTick where
  before : AppServer
  now : ℤ
  event : AppEvent
  replies : List (AppLimiter × RateReply)
  answer : Option Response

variable (parse : Schema → Json → Schema.Outcome) (verify : Native → String → String → Bool)
  (defaults : RateLimitDefaults)

/-- **What a request does**, what the limiters say, and what it is answered with. -/
def AppServer.handle (now : ℤ) (s : AppServer) (req : AppRequest) :
    AppServer × List (AppLimiter × RateReply) × Response :=
  let (store, replies) :=
    passLimiters (appLimiters defaults) now req.rate req.route.limiters s.store
  match replies.getLast?.bind fun reply => reply.2.response with
  | some refusal => (⟨now, store, s.seenNonces⟩, replies, refusal)
  | none =>
    let (answer, seenNonces) := req.answer parse verify now s.seenNonces
    (⟨now, store, seenNonces⟩, replies, answer)

/-- What an event does. -/
def AppServer.next (now : ℤ) (s : AppServer) :
    AppEvent → AppServer × List (AppLimiter × RateReply) × Option Response
  | .request req =>
    let (s', replies, answer) := s.handle parse verify defaults now req
    (s', replies, some answer)
  | .rateCleanup => (⟨now, s.store.cleanup defaults now, s.seenNonces⟩, [], none)
  | .nonceCleanup => (⟨now, s.store, cleanupNonces now s.seenNonces⟩, [], none)

/-- **The life of a server**: the clock does not go back. -/
abbrev AppRun : List AppTick → AppServer → Prop :=
  History (fun s => ∃ clock, s = AppServer.initial clock) fun s i s' =>
    i.before = s ∧ s.clock ≤ i.now ∧
      s.next parse verify defaults i.now i.event = (s', i.replies, i.answer)

/-- Let an event happen, if its time has come. -/
def AppServer.play (s : AppServer) (event : ℤ × AppEvent) : Option (AppTick × AppServer) :=
  if s.clock ≤ event.1 then
    let (s', replies, answer) := s.next parse verify defaults event.1 event.2
    some (⟨s, event.1, event.2, replies, answer⟩, s')
  else none

variable {parse verify defaults}

/-- **Runs by evaluation**: whatever is read off a script of events is read off a run. -/
theorem AppRun.exists_of_play {γ : Type} (clock : ℤ) {script : List (ℤ × AppEvent)}
    {f : List AppTick × AppServer → γ} {v : γ}
    (h : (History.replay (AppServer.play parse verify defaults) (.initial clock) script).map f =
      some v) : ∃ tr s, AppRun parse verify defaults tr s ∧ f (tr, s) = v := by
  refine History.exists_of_replay (fun s event i s' hplay => ?_) ⟨clock, rfl⟩ h
  unfold AppServer.play at hplay
  split at hplay
  · next hclock =>
    cases hplay
    exact ⟨rfl, hclock, rfl⟩
  · cases hplay

/-! ### The life of the limiters -/

/-- What a request does to the limiters, one after the other. -/
def rateTicks (now : ℤ) (req : RateRequest) (replies : List (AppLimiter × RateReply)) :
    List (RateTick AppLimiter) :=
  replies.map fun reply => ⟨now, .request reply.1 req, some reply.2⟩

/-- What happens to the limiters in an event. -/
def AppTick.rateTicks (i : AppTick) : List (RateTick AppLimiter) :=
  match i.event with
  | .request req => UrithiBidz.rateTicks i.now req.rate i.replies
  | .rateCleanup => [⟨i.now, .cleanup, none⟩]
  | .nonceCleanup => []

/-- A request goes through limiters as they say. -/
theorem rateRun_passLimiters (now : ℤ) (req : RateRequest) (is : List AppLimiter)
    {tr : List (RateTick AppLimiter)} {t : RateServer}
    (h : RateRun (appLimiters defaults) defaults tr t) (hclock : t.clock ≤ now) :
    ∃ t', RateRun (appLimiters defaults) defaults
      (tr ++ rateTicks now req (passLimiters (appLimiters defaults) now req is t.store).2) t' ∧
        t'.store = (passLimiters (appLimiters defaults) now req is t.store).1 ∧ t'.clock ≤ now := by
  induction is generalizing tr t with
  | nil => exact ⟨t, by simpa [passLimiters, rateTicks] using h, rfl, hclock⟩
  | cons i is ih =>
    rcases hreply : (appLimiters defaults i).handle now req t.store with ⟨store', reply⟩
    have hstep : RateRun (appLimiters defaults) defaults
        (tr ++ [⟨now, .request i req, some reply⟩]) ⟨now, store'⟩ := by
      refine h.snoc ⟨hclock, ?_⟩
      simp only [RateServer.next, hreply]
    rcases reply with headers | ⟨status, headers, error, retryAfter⟩
    · obtain ⟨t', hrun, hstore, hclock'⟩ := ih hstep (le_refl now)
      refine ⟨t', ?_, ?_, hclock'⟩
      · simp only [passLimiters, hreply, rateTicks, List.map_cons]
        rw [List.append_assoc] at hrun
        exact hrun
      · simp only [passLimiters, hreply]
        exact hstore
    · refine ⟨⟨now, store'⟩, ?_, ?_, le_refl now⟩
      · simp only [passLimiters, hreply]
        exact hstep
      · simp only [passLimiters, hreply]

variable {tr : List AppTick} {s s' : AppServer} {now : ℤ} {req : AppRequest}
  {replies : List (AppLimiter × RateReply)} {answer : Option Response}

theorem AppServer.limited_of_next
    (h : s.next parse verify defaults now (.request req) = (s', replies, answer)) :
    s'.store =
        (passLimiters (appLimiters defaults) now req.rate req.route.limiters s.store).1 ∧
      replies = (passLimiters (appLimiters defaults) now req.rate req.route.limiters s.store).2 ∧
        s'.clock = now := by
  simp only [next, handle] at h
  split at h <;> (cases h; exact ⟨rfl, rfl, rfl⟩)

/-- **The limiters live as in a server of their own.** -/
theorem AppRun.rateRun (h : AppRun parse verify defaults tr s) :
    ∃ t, RateRun (appLimiters defaults) defaults (tr.flatMap AppTick.rateTicks) t ∧
      t.store = s.store ∧ t.clock ≤ s.clock := by
  induction h with
  | start hs =>
    obtain ⟨clock, rfl⟩ := hs
    exact ⟨_, .start ⟨clock, rfl⟩, rfl, le_refl _⟩
  | @snoc tr s s' i h hs ih =>
    obtain ⟨t, hrun, hstore, hclock⟩ := ih
    obtain ⟨-, hnow, hnext⟩ := hs
    rw [List.flatMap_append, List.flatMap_singleton]
    rcases i with ⟨before, now, req | _ | _, replies, answer⟩
    · obtain ⟨hstore', hreplies, hclock'⟩ := AppServer.limited_of_next hnext
      obtain ⟨t', hrun', hkept, hlate⟩ :=
        rateRun_passLimiters now req.rate req.route.limiters hrun (hclock.trans hnow)
      rw [hstore] at hrun' hkept
      rw [← hreplies] at hrun'
      exact ⟨t', hrun', hkept.trans hstore'.symm, hlate.trans hclock'.ge⟩
    · cases hnext
      refine ⟨⟨now, t.store.cleanup defaults now⟩, hrun.snoc ⟨hclock.trans hnow, rfl⟩, ?_,
        le_refl _⟩
      rw [hstore]
    · cases hnext
      rw [AppTick.rateTicks, List.append_nil]
      exact ⟨t, hrun, hstore, hclock.trans hnow⟩

/-! ### The life of the cache -/

/-- What the middleware for signatures is asked by a request that is not refused before. -/
def AppRequest.asks (parse : Schema → Json → Schema.Outcome) (req : AppRequest) :
    Option (String × AuthRequest) :=
  match req.route with
  | .read _ => none
  | .createAuction body =>
    match parse createAuctionBodySchema body with
    | .parsed body => some ("seller", req.auth "seller" body)
    | _ => none
  | .placeBid id body _ =>
    match parse auctionIdSchema (.object [("id", .string id)]), parse placeBidBodySchema body with
    | .parsed _, .parsed body => some ("bidder", req.auth "bidder" body)
    | _, _ => none

/-- No limiter has refused. -/
def admitted (replies : List (AppLimiter × RateReply)) : Bool :=
  (replies.getLast?.bind fun reply => reply.2.response).isNone

/-- What happens to the cache in an event. -/
def AppTick.authTick (parse : Schema → Json → Schema.Outcome) (i : AppTick) : Option AuthTick :=
  match i.event with
  | .request req =>
    if admitted i.replies then
      (req.asks parse).map fun asked => ⟨i.before.seenNonces, i.now, .request asked.1 asked.2⟩
    else none
  | .rateCleanup => none
  | .nonceCleanup => some ⟨i.before.seenNonces, i.now, .cleanup⟩

/-- The middleware leaves the cache as it says. -/
theorem authenticated_snd {addressField : String} {body : Json} {seenNonces : SeenNonces}
    {response : Response} :
    (authenticated verify addressField now req body seenNonces response).2 =
      (⟨seenNonces, now, .request addressField (req.auth addressField body)⟩ :
        AuthTick).after verify := by
  rcases h : stellarAuthMiddleware verify addressField now (req.auth addressField body)
    seenNonces with _ | seen'
  · simp only [authenticated, AuthTick.after, h]
  · simp only [authenticated, AuthTick.after, h]

/-- The cache after a request that the limiters have let pass. -/
theorem AppRequest.answer_snd (req : AppRequest) (seenNonces : SeenNonces) :
    (req.answer parse verify now seenNonces).2 =
      ((req.asks parse).map fun asked => (⟨seenNonces, now, .request asked.1 asked.2⟩ :
        AuthTick).after verify).getD seenNonces := by
  unfold answer asks
  split
  · rfl
  · next body hroute =>
    unfold validated
    dsimp only
    split
    · exact authenticated_snd
    · rfl
  · next id body getAuction hroute =>
    unfold validated
    dsimp only
    rcases parse auctionIdSchema (.object [("id", .string id)]) with params | _ | _
    · rcases parse placeBidBodySchema body with body | _ | _
      · exact authenticated_snd
      · rfl
      · rfl
    · rfl
    · rfl

/-- What the cache is asked in an event, it is asked as it is then. -/
theorem AppTick.authTick_eq_some {i : AppTick} {a : AuthTick} (h : i.authTick parse = some a) :
    a.before = i.before.seenNonces ∧ a.now = i.now := by
  unfold authTick at h
  split at h
  · split at h
    · obtain ⟨asked, -, rfl⟩ := Option.map_eq_some_iff.mp h
      exact ⟨rfl, rfl⟩
    · cases h
  · cases h
  · cases h
    exact ⟨rfl, rfl⟩

theorem AppServer.cached_of_next
    (h : s.next parse verify defaults now (.request req) = (s', replies, answer)) :
    s'.seenNonces = if admitted replies then (req.answer parse verify now s.seenNonces).2
      else s.seenNonces := by
  simp only [next, handle] at h
  split at h
  · next refusal hrefused =>
    cases h
    rw [admitted, hrefused]
    rfl
  · next hrefused =>
    cases h
    rw [admitted, hrefused]
    rfl

/-- **What an event does to the cache**: what the middleware does, if it is asked. -/
theorem AppTick.seenNonces_of_next {i : AppTick}
    (h : i.before.next parse verify defaults i.now i.event = (s', i.replies, i.answer)) :
    s'.seenNonces =
        ((i.authTick parse).map (·.after verify)).getD i.before.seenNonces ∧ s'.clock = i.now := by
  rcases i with ⟨s, now, req | _ | _, replies, answer⟩
  · refine ⟨?_, (AppServer.limited_of_next h).2.2⟩
    rw [AppServer.cached_of_next h]
    simp only [authTick]
    split
    · rw [AppRequest.answer_snd]
      rcases req.asks parse with _ | asked <;> rfl
    · rfl
  · cases h
    exact ⟨rfl, rfl⟩
  · cases h
    exact ⟨rfl, rfl⟩

/-- **The cache lives as in a server of its own.** -/
theorem AppRun.authRun (h : AppRun parse verify defaults tr s) :
    ∃ t, AuthRun verify (tr.filterMap (AppTick.authTick parse)) t ∧
      t.seenNonces = s.seenNonces ∧ t.clock ≤ s.clock := by
  induction h with
  | start hs =>
    obtain ⟨clock, rfl⟩ := hs
    exact ⟨⟨clock, fun _ => none⟩, .start rfl, rfl, le_refl _⟩
  | @snoc tr s s' i h hs ih =>
    obtain ⟨t, hrun, hseen, hclock⟩ := ih
    obtain ⟨rfl, hnow, hnext⟩ := hs
    obtain ⟨hcache, hclock'⟩ := AppTick.seenNonces_of_next hnext
    rw [List.filterMap_append]
    rcases hauth : i.authTick parse with _ | a
    · rw [List.filterMap_cons_none hauth, List.filterMap_nil, List.append_nil]
      rw [hauth] at hcache
      exact ⟨t, hrun, hseen.trans hcache.symm, hclock.trans (hnow.trans hclock'.ge)⟩
    · obtain ⟨hbefore, hanow⟩ := AppTick.authTick_eq_some hauth
      rw [List.filterMap_cons_some hauth]
      rw [hauth] at hcache
      refine ⟨⟨a.now, a.after verify⟩, hrun.snoc ⟨hbefore.trans hseen.symm, ?_, rfl⟩,
        hcache.symm, (hanow.trans hclock'.symm).le⟩
      exact hclock.trans (hnow.trans hanow.ge)

end UrithiBidz
