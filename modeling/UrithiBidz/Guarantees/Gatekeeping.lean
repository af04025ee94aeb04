import UrithiBidz.Guarantees.Admission
import UrithiBidz.Guarantees.CreatePreflight
import UrithiBidz.Guarantees.RequestReplay

/-!
# Who may create an auction or place a bid

Behind its middleware the application accepts a request exactly if no limiter has refused it, its
path and body are valid and its signature is that of the account that the body names
(`UrithiBidz.AppTick.Authenticated`); a bid has to be about an auction that is there, too. This is
only looked up when the signature has been accepted, so a bid about an unknown auction is answered
with 404, and its nonce is burnt nevertheless. No other refusal burns a nonce: what the cache
remembers, at any time, are the requests that were authenticated, each until the timer throws it
out.

A signed message may be used again if its nonce was ahead of the clock when it was used first.
But it was ahead by half a minute at most, so the second use is more than four and a half minutes
after the time of the nonce, and there is no third (`UrithiBidz.AuthRun.not_thrice`).
-/

namespace UrithiBidz

/-! ### A message that is used again -/

/-- **A message may be used at two times**: its nonce was ahead of the clock, by what is tolerated,
and by the second time its pair had been forgotten while it was not too old. -/
def Reusable (nonce : String) (first second : ℤ) : Prop :=
  ∃ nonceMs, nonceTimestamp nonce = some nonceMs ∧ first < nonceMs ∧
    nonceMs ≤ first + 30000 ∧ first + authNonceMaxAgeMs < second ∧
      second ≤ nonceMs + authNonceMaxAgeMs

theorem Reusable.not_again {nonce : String} {first second third : ℤ}
    (h : Reusable nonce first second) : ¬Reusable nonce second third := by
  obtain ⟨nonceMs, hms, -, hskew, hlater, -⟩ := h
  rintro ⟨nonceMs', hms', hahead, -, -, -⟩
  obtain rfl := Option.some.inj (hms.symm.trans hms')
  simp only [authNonceMaxAgeMs] at hlater
  omega

section Reuse

variable {verify : Native → String → String → Bool} {tr : List AuthTick} {s : AuthServer}
  {i j k : AuthTick} {address nonce key : String} {time : ℤ}

/-- **What the cache holds after an event**: a pair that has just passed, or what it held before
and the timer has not thrown out. -/
theorem AuthTick.after_eq_some_iff : i.after verify key = some time ↔
    (∃ address nonce, i.Passes verify address nonce ∧ replayKey address nonce = key ∧
      i.now = time) ∨
        i.before key = some time ∧
          ¬(i.event = .cleanup ∧ authNonceMaxAgeMs < i.now - time) := by
  unfold after
  rcases hevent : i.event with ⟨addressField, request⟩ | _
  · rcases hok : stellarAuthMiddleware verify addressField i.now request i.before with _ | seen'
    · -- the middleware refuses, and writes nothing
      have hrefused : ¬∃ address nonce, i.Passes verify address nonce ∧
          replayKey address nonce = key ∧ i.now = time := by
        rintro ⟨address, nonce, ⟨field, request', seen', hevent', hok', -⟩, -⟩
        rw [hevent, AuthEvent.request.injEq] at hevent'
        obtain ⟨rfl, rfl⟩ := hevent'
        rw [hok] at hok'
        cases hok'
      simp [hok, hrefused]
    · obtain ⟨address, hmeets, rfl⟩ := stellarAuthMiddleware_eq_ok_iff.mp hok
      have hpass : i.Passes verify address request.nonce :=
        ⟨addressField, request, _, hevent, hok, hmeets.spelled, rfl⟩
      -- one request marks one key
      have hkeys : ∀ address' nonce', i.Passes verify address' nonce' →
          replayKey address' nonce' = replayKey address request.nonce := by
        rintro address' nonce' ⟨field, request', seen', hevent', -, hspelled, rfl⟩
        rw [hevent, AuthEvent.request.injEq] at hevent'
        obtain ⟨rfl, rfl⟩ := hevent'
        rw [Option.some.inj (hspelled.symm.trans hmeets.spelled)]
      simp only [hok]
      by_cases hkey : key = replayKey address request.nonce
      · obtain rfl := hkey
        rw [Function.update_self, hmeets.unseen]
        constructor
        · intro heq
          exact Or.inl ⟨address, _, hpass, rfl, Option.some.inj heq⟩
        · rintro (⟨-, -, -, -, heq⟩ | ⟨⟨⟩, -⟩)
          exact congrArg some heq
      · rw [Function.update_of_ne hkey]
        constructor
        · intro hseen
          exact Or.inr ⟨hseen, by simp⟩
        · rintro (⟨address', nonce', hpass', rfl, -⟩ | ⟨hseen, -⟩)
          · exact absurd (hkeys address' nonce' hpass') hkey
          · exact hseen
  · -- the timer forgets what is too old, and lets nobody pass
    have hrefused : ¬∃ address nonce, i.Passes verify address nonce ∧
        replayKey address nonce = key ∧ i.now = time := by
      rintro ⟨address, nonce, ⟨field, request', seen', hevent', -⟩, -⟩
      rw [hevent] at hevent'
      cases hevent'
    simp [hrefused, cleanupNonces, Option.filter_eq_some_iff]

/-- **The cache holds the pairs that have passed**, each until the timer throws it out. -/
theorem AuthRun.cached_iff (h : AuthRun verify tr s) (key : String) (time : ℤ) :
    s.seenNonces key = some time ↔
      History.Since (fun i => ∃ address nonce, i.Passes verify address nonce ∧
          replayKey address nonce = key ∧ i.now = time)
        (fun i => ¬(i.event = .cleanup ∧ authNonceMaxAgeMs < i.now - time)) tr := by
  refine History.since_iff (P := fun s => s.seenNonces key = some time) ?_ ?_ h
  · intro s hs
    rw [hs]
    exact Option.some_ne_none _ ∘ Eq.symm
  · rintro s a s' ⟨hbefore, -, rfl⟩
    rw [← hbefore]
    exact AuthTick.after_eq_some_iff

/-- A pair that has passed is remembered for five minutes. -/
theorem AuthRun.remembered (h : AuthRun verify tr s) (hi : i ∈ tr)
    (hpass : i.Passes verify address nonce) :
    s.seenNonces (replayKey address nonce) = some i.now ∨ i.now + authNonceMaxAgeMs < s.clock := by
  induction h with
  | start => exact absurd hi List.not_mem_nil
  | @snoc tr s s' a h hs ih =>
    obtain ⟨hbefore, hclock, rfl⟩ := hs
    rcases List.mem_append.mp hi with hi | hi
    · rcases ih hi with hseen | hold
      · by_cases hkept : a.event = .cleanup ∧ authNonceMaxAgeMs < a.now - i.now
        · right
          dsimp only
          omega
        · left
          rw [← hbefore] at hseen
          exact AuthTick.after_eq_some_iff.mpr (Or.inr ⟨hseen, hkept⟩)
      · right
        dsimp only
        omega
    · rw [List.mem_singleton.mp hi] at hpass ⊢
      exact Or.inl hpass.seen.2.1

/-- **A message is used again only if its nonce was ahead of the clock.** -/
theorem AuthRun.reused (h : AuthRun verify tr s) (address nonce : String) :
    tr.Pairwise fun i j => i.Passes verify address nonce → j.Passes verify address nonce →
      Reusable nonce i.now j.now := by
  refine History.pairwise ?_ h
  rintro past t j t' hpast ⟨hbefore, hclock, rfl⟩ i hi hpass hagain
  obtain ⟨-, -, nonceMs, hms, hearly⟩ := hpass.seen
  obtain ⟨hunseen, -, nonceMs', hms', hfresh⟩ := hagain.seen
  obtain rfl := Option.some.inj (hms.symm.trans hms')
  rw [hbefore] at hunseen
  rcases AuthRun.remembered hpast hi hpass with hseen | hold
  · rw [hunseen] at hseen
    cases hseen
  · simp only [NonceExpired, not_or, not_lt] at hearly hfresh
    exact ⟨nonceMs, hms, by omega, by omega, by omega, by omega⟩

end Reuse

/-! ### What is accepted -/

section Acceptance

variable {parse : Schema → Json → Schema.Outcome} {verify : Native → String → String → Bool}
  {defaults : RateLimitDefaults} {tr : List AppTick} {s s' : AppServer} {i : AppTick} {now : ℤ}
  {req : AppRequest} {address nonce : String} {replies : List (AppLimiter × RateReply)}
  {answer : Option Response}

/-- A request has created an auction or placed a bid, as far as the application goes. -/
def AppTick.Accepted (i : AppTick) : Prop :=
  ∃ response, i.answer = some response ∧ response.status = 201

/-- **The signature of a request is accepted**, as that of the address, for a nonce. -/
def AppTick.Authenticated (parse : Schema → Json → Schema.Outcome)
    (verify : Native → String → String → Bool) (i : AppTick) (address nonce : String) : Prop :=
  ∃ a ∈ i.authTick parse, a.Passes verify address nonce

/-- The auction is there, if the request is about one. -/
def AppRequest.known (parse : Schema → Json → Schema.Outcome) (req : AppRequest) : Bool :=
  match req.route with
  | .placeBid id _ getAuction =>
    match parse auctionIdSchema (.object [("id", .string id)]) with
    | .parsed params => (placeBidAnswer getAuction params .null).status = 201
    | _ => false
  | _ => true

theorem status_validated_iff {schema : Schema} {target : Json} {seenNonces : SeenNonces}
    {next : Json → Response × SeenNonces} :
    (validated parse schema target seenNonces next).1.status = 201 ↔
      ∃ parsed, parse schema target = .parsed parsed ∧ (next parsed).1.status = 201 := by
  unfold validated validate
  rcases parse schema target with parsed | errors | err
  · simp
  · simp
  · simp

theorem status_authenticated_iff {addressField : String} {body : Json} {seenNonces : SeenNonces}
    {response : Response} :
    (authenticated verify addressField now req body seenNonces response).1.status = 201 ↔
      (∃ seen', stellarAuthMiddleware verify addressField now (req.auth addressField body)
        seenNonces = .ok seen') ∧ response.status = 201 := by
  unfold authenticated
  rcases stellarAuthMiddleware verify addressField now (req.auth addressField body) seenNonces with
    error | seen'
  · simp [Response.failure]
  · simp

theorem status_placeBidAnswer (getAuction : ℤ → Except String (Option AuctionRecord))
    (params body body' : Json) : (placeBidAnswer getAuction params body).status =
      (placeBidAnswer getAuction params body').status := by
  unfold placeBidAnswer
  split <;> rfl

/-- **When a route that wants a signature accepts.** -/
theorem AppRequest.status_answer_iff (hpost : .strict ∈ req.route.limiters)
    (seenNonces : SeenNonces) :
    (req.answer parse verify now seenNonces).1.status = 201 ↔
      (∃ asked seen', req.asks parse = some asked ∧
        stellarAuthMiddleware verify asked.1 now asked.2 seenNonces = .ok seen') ∧
          req.known parse = true := by
  unfold answer asks known
  rcases hroute : req.route with _ | body | ⟨id, body, getAuction⟩
  · rw [hroute] at hpost
    exact absurd hpost (by simp [AppRoute.limiters])
  · simp only [status_validated_iff, status_authenticated_iff]
    rcases parse createAuctionBodySchema body with parsed | _ | _
    · simp [createAuctionAnswer]
    · simp
    · simp
  · simp only [status_validated_iff, status_authenticated_iff]
    rcases parse auctionIdSchema (.object [("id", .string id)]) with params | _ | _
    · rcases parse placeBidBodySchema body with parsed | _ | _
      · simp [status_placeBidAnswer getAuction params parsed .null]
      · simp
      · simp
    · simp
    · simp

/-- What a limiter answers with. -/
theorem status_refusal (limiters : AppLimiter → RateLimitConfig) (now : ℤ) (req : RateRequest)
    (is : List AppLimiter) (store : RateStore) :
    ∀ reply ∈ (passLimiters limiters now req is store).2, ∀ refusal ∈ reply.2.response,
      refusal.status = 429 := by
  induction is generalizing store with
  | nil => exact fun reply hreply => absurd hreply List.not_mem_nil
  | cons i is ih =>
    intro reply hreply refusal hrefusal
    rcases hhandle : (limiters i).handle now req store with ⟨store', headers | _⟩
    · simp only [passLimiters, hhandle, List.mem_cons] at hreply
      rcases hreply with rfl | hreply
      · cases hrefusal
      · exact ih store' reply hreply refusal hrefusal
    · simp only [passLimiters, hhandle, List.mem_singleton] at hreply
      obtain rfl := hreply
      have hstatus := congrArg Prod.snd hhandle
      simp only [RateLimitConfig.handle] at hstatus
      split at hstatus
      · cases hstatus
        obtain rfl := Option.some.inj hrefusal
        rfl
      · cases hstatus

/-- A request that is admitted has got past all limiters. -/
theorem passedBy_of_admitted (limiters : AppLimiter → RateLimitConfig) (now : ℤ)
    (req : RateRequest) (is : List AppLimiter) (store : RateStore)
    (h : admitted (passLimiters limiters now req is store).2 = true) :
    passedBy (passLimiters limiters now req is store).2 = is := by
  induction is generalizing store with
  | nil => rfl
  | cons i is ih =>
    rw [passedBy_passLimiters_cons]
    rcases hhandle : (limiters i).handle now req store with ⟨store', headers | _⟩
    · simp only [passLimiters, hhandle] at h
      refine (if_pos rfl).trans (congrArg (i :: ·) (ih store' ?_))
      rcases hrest : (passLimiters limiters now req is store').2 with _ | ⟨reply, rest⟩
      · rfl
      · rw [hrest, admitted, List.getLast?_cons_cons] at h
        exact h
    · simp only [passLimiters, hhandle] at h
      exact absurd h (by simp [admitted, RateReply.response])

/-- **The answer to a request**: that of its route if it is admitted, and otherwise 429. -/
theorem AppServer.answered_of_next
    (h : s.next parse verify defaults now (.request req) = (s', replies, answer)) :
    ∃ response, answer = some response ∧
      (admitted replies = true → response = (req.answer parse verify now s.seenNonces).1) ∧
        (admitted replies = false → response.status = 429) := by
  have hreplies := (AppServer.limited_of_next h).2.1
  simp only [next, handle] at h
  split at h
  · next refusal hrefused =>
    cases h
    refine ⟨refusal, rfl, fun hadmitted => ?_, fun _ => ?_⟩
    · rw [admitted, hrefused] at hadmitted
      cases hadmitted
    · obtain ⟨reply, hlast, hrefusal⟩ := Option.bind_eq_some_iff.mp hrefused
      exact status_refusal _ _ _ _ _ reply (List.mem_of_getLast? hlast) refusal hrefusal
  · next hrefused =>
    cases h
    refine ⟨_, rfl, fun _ => rfl, fun hadmitted => ?_⟩
    rw [admitted, hrefused] at hadmitted
    cases hadmitted

/-- **When a request is accepted**: when its signature is, and the auction is there. -/
theorem AppTick.accepted_iff
    (h : i.before.next parse verify defaults i.now i.event = (s', i.replies, i.answer))
    (hevent : i.event = .request req) (hpost : .strict ∈ req.route.limiters) :
    i.Accepted ↔
      (∃ address nonce, i.Authenticated parse verify address nonce) ∧ req.known parse = true := by
  rw [hevent] at h
  obtain ⟨response, hanswer, hadmitted, hrefused⟩ := AppServer.answered_of_next h
  have hstatus : i.Accepted ↔ response.status = 201 := by
    unfold Accepted
    rw [hanswer]
    simp
  rw [hstatus]
  unfold Authenticated authTick
  rw [hevent]
  rcases hadm : admitted i.replies with _ | _
  · simp [hrefused hadm]
  · rw [hadmitted hadm, AppRequest.status_answer_iff hpost]
    refine and_congr_left fun _ => ?_
    simp only [if_true, Option.mem_def, Option.map_eq_some_iff]
    constructor
    · rintro ⟨asked, seen', hasked, hok⟩
      obtain ⟨address, hmeets, -⟩ := stellarAuthMiddleware_eq_ok_iff.mp hok
      exact ⟨address, asked.2.nonce, _, ⟨asked, hasked, rfl⟩, asked.1, asked.2, seen', rfl, hok,
        hmeets.spelled, rfl⟩
    · rintro ⟨address, nonce, _, ⟨asked, hasked, rfl⟩, field, request, seen', hrequest, hok, -⟩
      obtain ⟨rfl, rfl⟩ := AuthEvent.request.inj hrequest
      exact ⟨asked, seen', hasked, hok⟩

/-- **What an authenticated request has been vetted for.** -/
structure AppTick.Vetted (parse : Schema → Json → Schema.Outcome)
    (verify : Native → String → String → Bool) (i : AppTick) (req : AppRequest)
    (address nonce : String) : Prop where
  event : i.event = .request req
  /-- It has got past both limiters. -/
  limits : passedBy i.replies = [.default, .strict]
  /-- The address is the key of an account. -/
  key : isStellarKey 'G' address = true
  /-- What it asks is valid, and signed by this account over the nonce. -/
  signed : ∃ field asked, req.asks parse = some (field, asked) ∧ asked.nonce = nonce ∧
    asked.address field = .string address ∧
      verify (.string address) (asked.message.getD "") (asked.signature.getD "") = true

/-- The address of a valid body. -/
theorem AppRequest.key_of_asks (hz : Schema.Documented parse) {field : String}
    {asked : AuthRequest} (h : req.asks parse = some (field, asked)) :
    req.route.limiters = [.default, .strict] ∧
      ∃ address, isStellarKey 'G' address = true ∧ asked.address field = .string address := by
  unfold asks at h
  split at h
  · cases h
  · -- the creation of an auction is signed by its seller
    next body hroute =>
    refine ⟨by rw [hroute]; rfl, ?_⟩
    split at h
    · next parsed hparsed =>
      cases h
      have hfields := ((hz.refine _ _ _ _ _ _).mp hparsed).1
      obtain ⟨-, hfields, -⟩ := hz.object_parsed _ _ _ (by decide) hfields
      obtain ⟨key, hkey, hseller⟩ := key_of_stellarAddress hz
        (hfields "seller" _ List.mem_cons_self)
      refine ⟨key, hkey, ?_⟩
      simp only [AuthRequest.address, AppRequest.auth, hseller]
      rfl
    · cases h
  · -- a bid is signed by its bidder
    next id body getAuction hroute =>
    refine ⟨by rw [hroute]; rfl, ?_⟩
    split at h
    · next params parsed hparams hparsed =>
      cases h
      obtain ⟨-, hfields, -⟩ := hz.object_parsed _ _ _ (by decide) hparsed
      obtain ⟨key, hkey, hbidder⟩ := key_of_stellarAddress hz
        (hfields "bidder" _ List.mem_cons_self)
      refine ⟨key, hkey, ?_⟩
      simp only [AuthRequest.address, AppRequest.auth, hbidder]
      rfl
    · cases h

/-- **Who is authenticated has been vetted.** -/
theorem AppTick.Authenticated.vetted (hz : Schema.Documented parse)
    (h : i.before.next parse verify defaults i.now i.event = (s', i.replies, i.answer))
    (hauth : i.Authenticated parse verify address nonce) :
    ∃ req, i.Vetted parse verify req address nonce := by
  obtain ⟨a, ha, hpass⟩ := hauth
  obtain ⟨field, request, seen', hrequest, hok, hspelled, rfl⟩ := hpass
  unfold authTick at ha
  split at ha
  · next req hevent =>
    split at ha
    · next hadmitted =>
      obtain ⟨⟨field', asked⟩, hasked, rfl⟩ := Option.map_eq_some_iff.mp ha
      obtain ⟨rfl, rfl⟩ := AuthEvent.request.inj hrequest
      obtain ⟨hlimiters, key, hkey, haddress⟩ := AppRequest.key_of_asks hz hasked
      obtain ⟨_, hmeets, -⟩ := stellarAuthMiddleware_eq_ok_iff.mp hok
      obtain rfl : key = address := by
        rw [haddress] at hspelled
        exact Option.some.inj hspelled
      have hsigned := hmeets.signature
      rw [haddress] at hsigned
      rw [hevent] at h
      -- whoever asks the middleware has passed both limiters
      have hreplies := (AppServer.limited_of_next h).2.1
      refine ⟨req, hevent, ?_, hkey, field', asked, hasked, rfl, haddress, hsigned⟩
      rw [hreplies] at hadmitted ⊢
      rw [passedBy_of_admitted _ _ _ _ _ hadmitted, hlimiters]
    · cases ha
  · cases ha
  · cases ha
    cases hrequest

/-- **The cache holds what has been authenticated**, each until the timer throws it out. -/
theorem AppRun.cached_iff (h : AppRun parse verify defaults tr s) (key : String) (time : ℤ) :
    s.seenNonces key = some time ↔
      History.Since (fun i => ∃ address nonce, i.Authenticated parse verify address nonce ∧
          replayKey address nonce = key ∧ i.now = time)
        (fun i => ¬(i.event = .nonceCleanup ∧ authNonceMaxAgeMs < i.now - time)) tr := by
  refine History.since_iff (P := fun s => s.seenNonces key = some time) ?_ ?_ h
  · rintro _ ⟨clock, rfl⟩
    exact Option.some_ne_none _ ∘ Eq.symm
  · rintro s i s' ⟨rfl, -, hnext⟩
    rw [(AppTick.seenNonces_of_next hnext).1]
    rcases hauth : i.authTick parse with _ | a
    · have hother : i.event ≠ .nonceCleanup := by
        intro hevent
        simp [AppTick.authTick, hevent] at hauth
      simp [AppTick.Authenticated, hauth, hother]
    · obtain ⟨hbefore, hnow⟩ := AppTick.authTick_eq_some hauth
      -- the timer of the cache is the one event besides requests that it hears of
      have hcleanup : a.event = .cleanup ↔ i.event = .nonceCleanup := by
        unfold AppTick.authTick at hauth
        split at hauth
        · next req hevent =>
          split at hauth
          · obtain ⟨asked, -, rfl⟩ := Option.map_eq_some_iff.mp hauth
            simp [hevent]
          · cases hauth
        · cases hauth
        · next hevent =>
          cases hauth
          simp [hevent]
      have hafter : a.after verify key = some time ↔ _ := AuthTick.after_eq_some_iff
      rw [hbefore, hnow, hcleanup] at hafter
      simpa [AppTick.Authenticated, hauth] using hafter

/-- **A message is used again only if its nonce was ahead of the clock.** -/
theorem AppRun.reused (h : AppRun parse verify defaults tr s) (address nonce : String) :
    tr.Pairwise fun i j => i.Authenticated parse verify address nonce →
      j.Authenticated parse verify address nonce → Reusable nonce i.now j.now := by
  obtain ⟨t, hrun, -⟩ := AppRun.authRun h
  refine (List.pairwise_filterMap.mp (AuthRun.reused hrun address nonce)).imp ?_
  rintro i j hpair ⟨a, ha, hpass⟩ ⟨b, hb, hagain⟩
  have htimes := hpair a ha b hb hpass hagain
  rwa [(AppTick.authTick_eq_some ha).2, (AppTick.authTick_eq_some hb).2] at htimes

/-- **The gate of the application**, in a run and at its end. -/
structure Gatekept (parse : Schema → Json → Schema.Outcome)
    (verify : Native → String → String → Bool) (tr : List AppTick) (s : AppServer) : Prop where
  /-- A request to create an auction or place a bid is accepted exactly if its signature is, and
  the auction is there. -/
  accepted_iff : ∀ i ∈ tr, ∀ req, i.event = .request req → .strict ∈ req.route.limiters →
    (i.Accepted ↔
      (∃ address nonce, i.Authenticated parse verify address nonce) ∧ req.known parse = true)
  /-- By then it has got past the limiters, is valid, and is signed by the account it names. -/
  vetted : ∀ i ∈ tr, ∀ address nonce, i.Authenticated parse verify address nonce →
    ∃ req, i.Vetted parse verify req address nonce
  /-- Such requests are remembered, and no others. -/
  cached_iff : ∀ key time, s.seenNonces key = some time ↔
    History.Since (fun i => ∃ address nonce, i.Authenticated parse verify address nonce ∧
        replayKey address nonce = key ∧ i.now = time)
      (fun i => ¬(i.event = .nonceCleanup ∧ authNonceMaxAgeMs < i.now - time)) tr
  /-- A message is used again only after what is left of the tolerance. -/
  reused : ∀ address nonce, tr.Pairwise fun i j => i.Authenticated parse verify address nonce →
    j.Authenticated parse verify address nonce → Reusable nonce i.now j.now
  /-- And not a third time. -/
  not_thrice : ∀ address nonce i j k, [i, j, k].Sublist tr →
    ¬(i.Authenticated parse verify address nonce ∧ j.Authenticated parse verify address nonce ∧
      k.Authenticated parse verify address nonce)

/-- **Every run of the application is gatekept.** -/
theorem AppRun.gatekept (h : AppRun parse verify defaults tr s) (hz : Schema.Documented parse) :
    Gatekept parse verify tr s := by
  have hnext : ∀ i ∈ tr, ∃ s',
      i.before.next parse verify defaults i.now i.event = (s', i.replies, i.answer) := by
    intro i hi
    obtain ⟨-, t, t', -, ⟨rfl, -, hnext⟩, -⟩ := h.of_mem hi
    exact ⟨t', hnext⟩
  refine ⟨?_, ?_, AppRun.cached_iff h, AppRun.reused h, ?_⟩
  · intro i hi req hevent hpost
    obtain ⟨s', hs⟩ := hnext i hi
    exact AppTick.accepted_iff hs hevent hpost
  · intro i hi address nonce hauth
    obtain ⟨s', hs⟩ := hnext i hi
    exact hauth.vetted hz hs
  · rintro address nonce i j k hsub ⟨hi, hj, hk⟩
    have hpairs := (AppRun.reused h address nonce).sublist hsub
    simp only [List.pairwise_cons, List.mem_cons, List.not_mem_nil, or_false, forall_eq_or_imp,
      forall_eq] at hpairs
    exact (hpairs.1.1 hi hj).not_again (hpairs.2.1 hj hk)

end Acceptance

namespace Stage

/-- Signatures of any account, in a hand that is easily read. -/
def inkedBy (address : Native) (message signature : String) : Bool :=
  signature = address.text ++ " signs " ++ message

/-- A request to create an auction, signed over a nonce that is half a minute ahead. -/
def hasty : AppRequest where
  rate := rateRequest
  signature := some (key 'G' ++ " signs stellar-urithi-bidz-auth:1700000030000:a")
  message := some "stellar-urithi-bidz-auth:1700000030000:a"
  route := .createAuction (listing [])

/-- It comes, and comes again twice when it has been forgotten. -/
def insisting : List (ℤ × AppEvent) :=
  [(1700000000000, .request hasty), (1700000300001, .nonceCleanup),
    (1700000300001, .request hasty), (1700000300002, .request hasty)]

end Stage

/-- The theorem at these requests: the second is accepted, the third is not. -/
theorem gatekept_insisting : ∃ (tr : List AppTick) (s : AppServer),
    AppRun Schema.reference Stage.inkedBy .unset tr s ∧
      tr.filterMap (fun i => i.answer.map (·.status)) = [201, 201, 401] ∧
        Gatekept Schema.reference Stage.inkedBy tr s := by
  have hplay : (History.replay (AppServer.play Schema.reference Stage.inkedBy .unset)
      (.initial 0) Stage.insisting).map (fun r => r.1.filterMap fun i =>
        i.answer.map (·.status)) = some [201, 201, 401] := by
    decide +kernel
  obtain ⟨tr, s, hrun, hv⟩ := AppRun.exists_of_play 0 hplay
  exact ⟨tr, s, hrun, hv, AppRun.gatekept hrun Schema.documented_reference⟩

end UrithiBidz
