import UrithiBidz.Guarantees.RateLimit
import UrithiBidz.Server.App

/-!
# How many requests pass

A limiter of its own is not exact when another one keeps its times in the same store. But limiters
that go by the same window, as the timer does, are exact together: the times that are kept are all
that any of them has let pass (`UrithiBidz.RateRun.recent_bucket`), and each lets a request pass
exactly if these are fewer than its own bound (`UrithiBidz.RateRun.admission_together`).

In the application, with a default window of a minute, this tells how many requests pass. One that
reads leaves one mark in the store of its client, one that creates an auction or places a bid
leaves two. So a client can post ten times in a minute, not twenty, and not at all after having
read nineteen times (`UrithiBidz.AppRun.quota`).
-/

namespace UrithiBidz

/-! ### Limiters with one window -/

section Together

variable {ι : Type} {limiters : ι → RateLimitConfig}
  {defaults : RateLimitDefaults} {tr past : List (RateTick ι)} {s : RateServer} {e : RateTick ι}
  {window now : ℤ} {key : String} {i : ι}

/-- When any limiter has let requests of a key pass. -/
def passTimes (limiters : ι → RateLimitConfig) (key : String) (tr : List (RateTick ι)) : List ℤ :=
  (tr.filter fun e => (e.admission limiters).map Prod.snd = some key).map (·.now)

theorem passTimes_append (limiters : ι → RateLimitConfig) (key : String)
    (tr tr' : List (RateTick ι)) : passTimes limiters key (tr ++ tr') =
      passTimes limiters key tr ++ passTimes limiters key tr' := by
  rw [passTimes, List.filter_append, List.map_append, ← passTimes, ← passTimes]

theorem passTimes_singleton (limiters : ι → RateLimitConfig) (key : String) (e : RateTick ι) :
    passTimes limiters key [e] =
      if (e.admission limiters).map Prod.snd = some key then [e.now] else [] := by
  rw [passTimes]
  split
  · next h => rw [List.filter_cons_of_pos (by simpa using h)]; rfl
  · next h => rw [List.filter_cons_of_neg (by simpa using h)]; rfl

/-- **What is kept is what was let pass**, within the window that all go by. -/
theorem RateRun.recent_bucket (h : RateRun limiters defaults tr s)
    (hwindow : ∀ i, (limiters i).windowMs = window) (htimer : defaults.windowMs = window)
    (key : String) (hnow : s.clock ≤ now) :
    SlidingWindow.recent window now (s.store.bucket key) =
      SlidingWindow.recent window now (passTimes limiters key tr) := by
  induction h with
  | start hs =>
    obtain ⟨clock, rfl⟩ := hs
    rfl
  | @snoc tr s s' e h hs ih =>
    obtain ⟨hclock, hnext⟩ := hs
    -- what is thrown out was not recent then, and is even less so later
    have hlate : e.now ≤ now := by
      refine le_trans (le_of_eq ?_) hnow
      rcases e with ⟨now', event | _, reply⟩ <;> exact congrArg (fun r => r.1.clock) hnext
    have hprune : SlidingWindow.recent window now
        (e.prune limiters defaults key (s.store.bucket key)) =
          SlidingWindow.recent window now (s.store.bucket key) := by
      -- every limiter prunes by the one window, and so does the timer
      have hprunes : ∀ w ∈ e.prunes limiters defaults key, w = window := by
        intro w hw
        unfold RateTick.prunes at hw
        split at hw
        · split at hw
          · exact (Option.some.inj hw).symm.trans (hwindow _)
          · cases hw
        · exact (Option.some.inj hw).symm.trans htimer
      unfold RateTick.prune
      rcases hw : e.prunes limiters defaults key with _ | w
      · rfl
      · obtain rfl := hprunes w hw
        exact SlidingWindow.recent_recent hlate
    rw [bucket_of_next hnext, passTimes_append, passTimes_singleton, SlidingWindow.recent_append,
      SlidingWindow.recent_append, hprune, ih (hclock.trans hlate)]

/-- **Limiters that go by one window are exact together.** -/
theorem RateRun.admission_together (h : RateRun limiters defaults (past ++ [e]) s)
    (hwindow : ∀ i, (limiters i).windowMs = window) (htimer : defaults.windowMs = window)
    {req : RateRequest} (hevent : e.event = .request i req) :
    e.admission limiters = some (i, (limiters i).keyGenerator req) ↔
      ((SlidingWindow.recent window e.now
        (passTimes limiters ((limiters i).keyGenerator req) past)).length : ℤ) <
          (limiters i).maxRequests := by
  obtain ⟨t, hpast, hclock, hnext⟩ := h.of_snoc
  rw [admission_of_next hnext hevent, RateLimitConfig.counted, hwindow,
    RateRun.recent_bucket hpast hwindow htimer _ hclock]

end Together

/-! ### The limiters of the application -/

section Application

variable {parse : Schema → Json → Schema.Outcome} {verify : Native → String → String → Bool}
  {defaults : RateLimitDefaults} {tr past : List AppTick} {s : AppServer} {i : AppTick} {now : ℤ}
  {key : String}

/-- Who has let a request pass. -/
def passedBy (replies : List (AppLimiter × RateReply)) : List AppLimiter :=
  (replies.filter fun reply => reply.2.passes).map Prod.fst

/-- The client that a request is from. -/
def AppEvent.client : AppEvent → Option String
  | .request req => some (defaultKeyGenerator req.rate)
  | _ => none

/-- The marks of a client: one for each time that a limiter has let a request pass. -/
def marks (key : String) (tr : List AppTick) : List ℤ :=
  tr.flatMap fun i => if i.event.client = some key then (passedBy i.replies).map fun _ => i.now
    else []

/-- The requests of a client that the strict limiter has let pass: those that create an auction or
place a bid. -/
def posts (key : String) (tr : List AppTick) : List ℤ :=
  tr.flatMap fun i => if i.event.client = some key ∧ .strict ∈ passedBy i.replies then [i.now]
    else []

theorem keyGenerator_appLimiters (defaults : RateLimitDefaults) (i : AppLimiter) :
    (appLimiters defaults i).keyGenerator = defaultKeyGenerator := by
  cases i <;> rfl

/-- The marks that a request leaves. -/
theorem passTimes_rateTicks (defaults : RateLimitDefaults) (key : String) (now : ℤ)
    (req : RateRequest) (replies : List (AppLimiter × RateReply)) :
    passTimes (appLimiters defaults) key (rateTicks now req replies) =
      if some (defaultKeyGenerator req) = some key then (passedBy replies).map fun _ => now
        else [] := by
  induction replies with
  | nil => exact (ite_self _).symm
  | cons reply replies ih =>
    obtain ⟨i, reply⟩ := reply
    rw [rateTicks, List.map_cons, ← List.singleton_append, passTimes_append, passTimes_singleton,
      ← rateTicks, ih]
    simp only [RateTick.admission, keyGenerator_appLimiters, passedBy]
    by_cases hpasses : reply.passes = true
    · rw [List.filter_cons_of_pos (by simpa using hpasses), if_pos hpasses]
      by_cases hkey : some (defaultKeyGenerator req) = some key
      · simp [hkey]
      · simp [hkey]
    · rw [List.filter_cons_of_neg (by simpa using hpasses), if_neg hpasses]
      simp

theorem marks_eq (defaults : RateLimitDefaults) (key : String) (tr : List AppTick) :
    passTimes (appLimiters defaults) key (tr.flatMap AppTick.rateTicks) = marks key tr := by
  induction tr with
  | nil => rfl
  | cons i tr ih =>
    rw [List.flatMap_cons, passTimes_append, ih, marks, marks, List.flatMap_cons]
    congr 1
    rcases i with ⟨before, now, req | _ | _, replies, answer⟩
    · exact passTimes_rateTicks defaults key now req.rate replies
    · simp [AppTick.rateTicks, passTimes, RateTick.admission, AppEvent.client]
    · rfl

theorem passedBy_passLimiters_cons (limiters : AppLimiter → RateLimitConfig) (now : ℤ)
    (req : RateRequest) (i : AppLimiter) (rest : List AppLimiter) (store : RateStore) :
    passedBy (passLimiters limiters now req (i :: rest) store).2 =
      if ((limiters i).handle now req store).2.passes then
        i :: passedBy (passLimiters limiters now req rest ((limiters i).handle now req store).1).2
      else [] := by
  rcases hreply : (limiters i).handle now req store with ⟨store', headers | _⟩
  · simp [passLimiters, hreply, passedBy, RateReply.passes]
  · simp [passLimiters, hreply, passedBy, RateReply.passes]

/-- **The quota of a client**, for a request with its past. -/
structure Quota (defaults : RateLimitDefaults) (past : List AppTick) (i : AppTick)
    (req : AppRequest) : Prop where
  /-- A request gets past the default limiter if there are few marks. -/
  default_iff : .default ∈ passedBy i.replies ↔
    ((SlidingWindow.recent 60000 i.now (marks (defaultKeyGenerator req.rate) past)).length : ℤ) <
      defaults.maxRequests
  /-- One that creates an auction or places a bid gets past the strict one as well if there are
  fewer than nineteen. -/
  strict_iff : .strict ∈ passedBy i.replies ↔ .strict ∈ req.route.limiters ∧
    .default ∈ passedBy i.replies ∧
      (SlidingWindow.recent 60000 i.now (marks (defaultKeyGenerator req.rate) past)).length < 19

/-- **Every request is judged by its quota.** -/
theorem AppRun.quota_at (h : AppRun parse verify defaults (past ++ [i]) s)
    (htimer : defaults.windowMs = 60000) {req : AppRequest} (hevent : i.event = .request req) :
    Quota defaults past i req := by
  obtain ⟨t, hpast, -, hclock, hnext⟩ := h.of_snoc
  obtain ⟨t', hrate, hstore, hlate⟩ := AppRun.rateRun hpast
  have hwindow : ∀ j, (appLimiters defaults j).windowMs = 60000 := by
    intro j
    cases j
    · exact htimer
    · rfl
  have hrecent : SlidingWindow.recent 60000 i.now
      (t.store.bucket (defaultKeyGenerator req.rate)) =
        SlidingWindow.recent 60000 i.now (marks (defaultKeyGenerator req.rate) past) := by
    rw [← hstore, RateRun.recent_bucket hrate hwindow htimer _ (hlate.trans hclock), marks_eq]
  -- the default limiter counts the marks, and the strict one counts one more
  have hdefault : ((appLimiters defaults .default).handle i.now req.rate t.store).2.passes = true ↔
      ((SlidingWindow.recent 60000 i.now
        (marks (defaultKeyGenerator req.rate) past)).length : ℤ) < defaults.maxRequests := by
    rw [RateLimitConfig.passes_handle_iff, RateLimitConfig.counted, hwindow,
      keyGenerator_appLimiters, hrecent]
    rfl
  have hstrict : ((appLimiters defaults .default).handle i.now req.rate t.store).2.passes = true →
      (((appLimiters defaults .strict).handle i.now req.rate
        ((appLimiters defaults .default).handle i.now req.rate t.store).1).2.passes = true ↔
          (SlidingWindow.recent 60000 i.now
            (marks (defaultKeyGenerator req.rate) past)).length < 19) := by
    intro hpasses
    have hbucket := (appLimiters defaults .default).bucket_handle_self i.now req.rate t.store
    rw [if_pos hpasses, RateLimitConfig.counted, hwindow, keyGenerator_appLimiters, hrecent]
      at hbucket
    have hnow : SlidingWindow.recent 60000 i.now [i.now] = [i.now] := by
      simp [SlidingWindow.recent]
    rw [RateLimitConfig.passes_handle_iff, RateLimitConfig.counted, hwindow,
      keyGenerator_appLimiters, hbucket, SlidingWindow.recent_append,
      SlidingWindow.recent_recent (le_refl _), hnow, List.length_append, List.length_singleton]
    change ((_ + 1 : ℕ) : ℤ) < 20 ↔ _
    omega
  rw [hevent] at hnext
  have hreplies := (AppServer.limited_of_next hnext).2.1
  have hpassed : passedBy i.replies =
      if ((appLimiters defaults .default).handle i.now req.rate t.store).2.passes = true then
        if .strict ∈ req.route.limiters ∧ ((appLimiters defaults .strict).handle i.now req.rate
            ((appLimiters defaults .default).handle i.now req.rate t.store).1).2.passes = true then
          [.default, .strict] else [.default]
      else [] := by
    rw [hreplies]
    rcases req.route with _ | _ | _
    · rw [AppRoute.limiters, passedBy_passLimiters_cons]
      simp [passLimiters, passedBy]
    all_goals
      rw [AppRoute.limiters, passedBy_passLimiters_cons, passedBy_passLimiters_cons]
      simp only [passLimiters, passedBy, List.filter_nil, List.map_nil, List.mem_cons,
        List.not_mem_nil, or_false, or_true, true_and]
      split
      · split <;> rfl
      · rfl
  constructor
  · rw [← hdefault, hpassed]
    split
    · next hpasses =>
      refine iff_of_true ?_ hpasses
      split <;> exact List.mem_cons_self
    · next hrefused => exact iff_of_false List.not_mem_nil hrefused
  · rw [hpassed]
    split
    · next hpasses =>
      rw [← hstrict hpasses]
      split
      · next hboth => simp [hboth]
      · next hno =>
        simp only [List.mem_cons, List.not_mem_nil, or_false, true_and]
        exact iff_of_false (by simp) hno
    · simp

theorem marks_concat (key : String) (tr : List AppTick) (i : AppTick) : marks key (tr ++ [i]) =
    marks key tr ++ if i.event.client = some key then (passedBy i.replies).map fun _ => i.now
      else [] := by
  rw [marks, List.flatMap_append, List.flatMap_singleton, ← marks]

theorem posts_concat (key : String) (tr : List AppTick) (i : AppTick) : posts key (tr ++ [i]) =
    posts key tr ++ if i.event.client = some key ∧ .strict ∈ passedBy i.replies then [i.now]
      else [] := by
  rw [posts, List.flatMap_append, List.flatMap_singleton, ← posts]

/-- A request that gets past the strict limiter leaves two marks. -/
theorem Quota.two_le {req : AppRequest} (h : Quota defaults past i req)
    (hstrict : .strict ∈ passedBy i.replies) : 2 ≤ (passedBy i.replies).length := by
  have hdefault := (h.strict_iff.mp hstrict).2.1
  have hsub : [AppLimiter.default, .strict] ⊆ passedBy i.replies := by
    simp [hdefault, hstrict]
  exact (List.subperm_of_subset (by decide) hsub).length_le

/-- **Ten posts in a minute**, wherever the minute ends, and two marks for each. -/
theorem AppRun.posts_bounded (h : AppRun parse verify defaults tr s)
    (htimer : defaults.windowMs = 60000) (key : String) :
    (∀ now, 2 * (SlidingWindow.recent 60000 now (posts key tr)).length ≤
      (SlidingWindow.recent 60000 now (marks key tr)).length) ∧
        SlidingWindow.Bounded 60000 10 (posts key tr) := by
  induction h with
  | start => exact ⟨fun _ => le_refl _, .nil _ _⟩
  | @snoc tr s s' i h hs ih =>
    obtain ⟨htwice, hbounded⟩ := ih
    rw [marks_concat, posts_concat]
    by_cases hpost : i.event.client = some key ∧ .strict ∈ passedBy i.replies
    · obtain ⟨hclient, hstrict⟩ := hpost
      rcases hevent : i.event with req | _ | _
      · -- a request that gets past the strict limiter leaves two marks at its own time
        have hquota := AppRun.quota_at (h.snoc hs) htimer hevent
        rw [hevent] at hclient
        rw [if_pos ⟨hclient, hstrict⟩, if_pos hclient]
        obtain rfl : defaultKeyGenerator req.rate = key := Option.some.inj hclient
        have hfew := (hquota.strict_iff.mp hstrict).2.2
        have htwo := hquota.two_le hstrict
        constructor
        · intro now
          have hpast := htwice now
          rw [SlidingWindow.recent_append, SlidingWindow.recent_append, List.length_append,
            List.length_append]
          unfold SlidingWindow.recent at hpast ⊢
          by_cases hin : now - i.now < 60000
          · have hall : ((passedBy i.replies).map fun _ => i.now).filter
                (fun t => decide (now - t < 60000)) = (passedBy i.replies).map fun _ => i.now :=
              List.filter_eq_self.mpr (by simpa using fun _ => hin)
            rw [List.filter_cons_of_pos (by simpa using hin), List.filter_nil,
              List.length_singleton, hall, List.length_map]
            omega
          · rw [List.filter_cons_of_neg (by simpa using hin), List.filter_nil, List.length_nil]
            omega
        · have hnow := htwice i.now
          -- the strict limiter saw fewer than 20 marks, and these are two for each such request
          exact hbounded.concat (by omega)
      · rw [hevent] at hclient
        cases hclient
      · rw [hevent] at hclient
        cases hclient
    · rw [if_neg hpost, List.append_nil]
      -- more marks, and no such request
      refine ⟨fun now => ?_, hbounded⟩
      rw [SlidingWindow.recent_append, List.length_append]
      exact (htwice now).trans (Nat.le_add_right _ _)

/-- **How many requests pass**, in any run of an application with a default window of a minute. -/
theorem AppRun.quota (h : AppRun parse verify defaults tr s)
    (htimer : defaults.windowMs = 60000) :
    (∀ past i req, past ++ [i] <+: tr → i.event = .request req → Quota defaults past i req) ∧
      ∀ key, SlidingWindow.Bounded 60000 10 (posts key tr) := by
  refine ⟨fun past i req hpre hevent => ?_, fun key => (AppRun.posts_bounded h htimer key).2⟩
  obtain ⟨later, rfl⟩ := hpre
  obtain ⟨t, hrun, -⟩ := h.split
  exact AppRun.quota_at hrun htimer hevent

end Application

namespace Stage

/-- A request that comes to the application from one address. -/
def appRequest (route : AppRoute) : AppRequest := ⟨rateRequest, none, none, route⟩

/-- Nineteen requests that read, and a bid that is none. -/
def reading : List (ℤ × AppEvent) :=
  List.replicate 19 (0, .request (appRequest (.read (.failure 404 "Auction not found")))) ++
    [(0, .request (appRequest (.placeBid "1" .null fun _ => .ok none)))]

end Stage

/-- The theorem at these requests: the bid does not get past the limiter. -/
theorem quota_reading : ∃ (tr : List AppTick) (s : AppServer),
    AppRun Schema.reference (fun _ _ _ => false) .unset tr s ∧
      (marks "203.0.113.7" tr).length = 20 ∧ tr.length = 20 ∧
        tr.getLast?.bind (·.answer.map (·.status)) = some 429 ∧
          ((∀ past i req, past ++ [i] <+: tr → i.event = .request req → Quota .unset past i req) ∧
            ∀ key, SlidingWindow.Bounded 60000 10 (posts key tr)) := by
  have hplay : (History.replay (AppServer.play Schema.reference (fun _ _ _ => false) .unset)
      (.initial 0) Stage.reading).map (fun r => ((marks "203.0.113.7" r.1).length, r.1.length,
        r.1.getLast?.bind (·.answer.map (·.status)))) = some (20, 20, some 429) := by
    decide +kernel
  obtain ⟨tr, s, hrun, hv⟩ := AppRun.exists_of_play 0 hplay
  simp only [Prod.mk.injEq] at hv
  exact ⟨tr, s, hrun, hv.1, hv.2.1, hv.2.2, AppRun.quota hrun rfl⟩

end UrithiBidz
