import UrithiBidz.Server.RateLimiter

/-!
# Exact windows

A limiter should let a request pass exactly if it has let fewer pass than its bound, of the same
client and within its window. All limiters keep their times in one store, though. What another
limiter has let pass counts as well, so that a request that passes both limiters counts twice
(`UrithiBidz.exists_counted_twice`); and a limiter with a shorter window, or the timer, which goes
by the default window, throws out times that would still count. A limiter is exact as long as
neither happens to the keys it sees (`UrithiBidz.RateTick.Undisturbed`): its times in the store are
then its own (`UrithiBidz.RateRun.filter_bucket`), and so every decision is right and no window has
more requests than it should (`UrithiBidz.RateRun.exact`).
-/

namespace UrithiBidz

variable {ι : Type} {limiters : ι → RateLimitConfig} {defaults : RateLimitDefaults}

/-! ### What an event does to the times of a key -/

/-- The times that are kept for a key. -/
def RateStore.bucket (store : RateStore) (key : String) : List ℤ := (store key).getD []

/-- The request goes on. -/
def RateReply.passes : RateReply → Bool
  | .next _ => true
  | .refused _ _ _ _ => false

namespace RateLimitConfig

/-- The times that a limiter counts for a request. -/
def counted (limiter : RateLimitConfig) (now : ℤ) (req : RateRequest) (store : RateStore) :
    List ℤ :=
  SlidingWindow.recent limiter.windowMs now (store.bucket (limiter.keyGenerator req))

variable (limiter : RateLimitConfig) (now : ℤ) (req : RateRequest) (store : RateStore)

/-- **A request goes on if few are counted.** -/
theorem passes_handle_iff : (limiter.handle now req store).2.passes = true ↔
    ((limiter.counted now req store).length : ℤ) < limiter.maxRequests := by
  unfold handle
  dsimp only
  split
  · next hmany => exact iff_of_false Bool.false_ne_true (not_lt.mpr hmany)
  · next hfew => exact iff_of_true rfl (not_le.mp hfew)

/-- **What is kept then**: the times that are counted, and the new one if it goes on. -/
theorem store_handle : (limiter.handle now req store).1 =
    Function.update store (limiter.keyGenerator req) (some (limiter.counted now req store ++
      if (limiter.handle now req store).2.passes then [now] else [])) := by
  unfold handle
  dsimp only
  split
  · exact congrArg (fun times => Function.update store _ (some times)) (List.append_nil _).symm
  · rfl

theorem bucket_handle_self : (limiter.handle now req store).1.bucket (limiter.keyGenerator req) =
    limiter.counted now req store ++
      if (limiter.handle now req store).2.passes then [now] else [] := by
  rw [store_handle, RateStore.bucket, Function.update_self, Option.getD_some]

theorem bucket_handle_of_ne {key : String} (h : key ≠ limiter.keyGenerator req) :
    (limiter.handle now req store).1.bucket key = store.bucket key := by
  rw [store_handle, RateStore.bucket, Function.update_of_ne h, RateStore.bucket]

end RateLimitConfig

/-- The timer throws out what is not recent by the default window. -/
theorem bucket_cleanup (now : ℤ) (store : RateStore) (key : String) :
    (store.cleanup defaults now).bucket key =
      SlidingWindow.recent defaults.windowMs now (store.bucket key) := by
  unfold RateStore.bucket RateStore.cleanup
  rcases store key with _ | timestamps
  · rfl
  · rw [Option.map_some, Option.getD_some]
    by_cases hnil : (timestamps.filter fun t => now - t < defaults.windowMs) = []
    · rw [SlidingWindow.recent, hnil]
      rfl
    · rw [Option.filter_some, if_pos (decide_eq_true hnil)]
      rfl

namespace RateTick

/-- Which limiter lets the request pass, and for which key. -/
def admission (limiters : ι → RateLimitConfig) (e : RateTick ι) : Option (ι × String) :=
  match e.event, e.reply with
  | .request i req, some reply =>
    if reply.passes then some (i, (limiters i).keyGenerator req) else none
  | _, _ => none

/-- With which window the event goes through the times of a key, if it does. -/
def prunes (limiters : ι → RateLimitConfig) (defaults : RateLimitDefaults) (e : RateTick ι)
    (key : String) : Option ℤ :=
  match e.event with
  | .request i req =>
    if (limiters i).keyGenerator req = key then some (limiters i).windowMs else none
  | .cleanup => some defaults.windowMs

/-- What it leaves of them. -/
def prune (limiters : ι → RateLimitConfig) (defaults : RateLimitDefaults) (e : RateTick ι)
    (key : String) (times : List ℤ) : List ℤ :=
  ((e.prunes limiters defaults key).map fun window =>
    SlidingWindow.recent window e.now times).getD times

end RateTick

variable {s s' : RateServer} {e : RateTick ι}

/-- **The times of a key after an event**: some may have been thrown out, and one more may have
been let pass. -/
theorem bucket_of_next (hnext : s.next limiters defaults e.now e.event = (s', e.reply))
    (key : String) : s'.store.bucket key =
      e.prune limiters defaults key (s.store.bucket key) ++
        if (e.admission limiters).map Prod.snd = some key then [e.now] else [] := by
  obtain ⟨now, event, reply⟩ := e
  rcases event with ⟨i, req⟩ | _
  · have hs' : s' = ⟨now, ((limiters i).handle now req s.store).1⟩ := (congrArg Prod.fst hnext).symm
    have hreply : reply = some ((limiters i).handle now req s.store).2 :=
      (congrArg Prod.snd hnext).symm
    subst hs' hreply
    simp only [RateTick.prune, RateTick.prunes, RateTick.admission]
    by_cases hkey : (limiters i).keyGenerator req = key
    · subst hkey
      rw [RateLimitConfig.bucket_handle_self, if_pos rfl]
      by_cases hpasses : ((limiters i).handle now req s.store).2.passes = true
      · simp [RateLimitConfig.counted, hpasses]
      · simp [RateLimitConfig.counted, hpasses]
    · rw [RateLimitConfig.bucket_handle_of_ne _ _ _ _ (Ne.symm hkey), if_neg hkey]
      by_cases hpasses : ((limiters i).handle now req s.store).2.passes = true
      · simp [hpasses, hkey]
      · simp [hpasses]
  · have hs' : s' = ⟨now, s.store.cleanup defaults now⟩ := (congrArg Prod.fst hnext).symm
    subst hs'
    simp only [RateTick.prune, RateTick.prunes, RateTick.admission]
    rw [bucket_cleanup]
    simp

/-- A request is let pass by the times that are counted for it. -/
theorem admission_of_next (hnext : s.next limiters defaults e.now e.event = (s', e.reply))
    {i : ι} {req : RateRequest} (hevent : e.event = .request i req) :
    e.admission limiters = some (i, (limiters i).keyGenerator req) ↔
      (((limiters i).counted e.now req s.store).length : ℤ) < (limiters i).maxRequests := by
  have hreply : some ((limiters i).handle e.now req s.store).2 = e.reply := by
    rw [hevent] at hnext
    exact congrArg Prod.snd hnext
  have hpasses : e.admission limiters = some (i, (limiters i).keyGenerator req) ↔
      ((limiters i).handle e.now req s.store).2.passes = true := by
    simp [RateTick.admission, hevent, ← hreply]
  rw [hpasses, RateLimitConfig.passes_handle_iff]

/-! ### Along a run -/

variable [DecidableEq ι] {tr past : List (RateTick ι)} {i : ι} {key : String}

/-- When a limiter has let requests of a key pass. -/
def admissions (limiters : ι → RateLimitConfig) (i : ι) (key : String) (tr : List (RateTick ι)) :
    List ℤ :=
  (tr.filter fun e => e.admission limiters = some (i, key)).map (·.now)

theorem admissions_concat (limiters : ι → RateLimitConfig) (i : ι) (key : String)
    (tr : List (RateTick ι)) (e : RateTick ι) : admissions limiters i key (tr ++ [e]) =
      admissions limiters i key tr ++
        if e.admission limiters = some (i, key) then [e.now] else [] := by
  rw [admissions, List.filter_append, List.map_append, ← admissions]
  by_cases h : e.admission limiters = some (i, key)
  · rw [if_pos h, List.filter_cons_of_pos (by simpa using h)]
    rfl
  · rw [if_neg h, List.filter_cons_of_neg (by simpa using h)]
    rfl

omit [DecidableEq ι] in
/-- Times that are not out of the window with which the times of the key are gone through are
kept. -/
theorem RateTick.filter_prune {e : RateTick ι} {times : List ℤ} {p : ℤ → Bool}
    (h : ∀ t ∈ times, p t = true → ∀ window ∈ e.prunes limiters defaults key, e.now - t < window) :
    (e.prune limiters defaults key times).filter p = times.filter p := by
  unfold RateTick.prune SlidingWindow.recent
  rcases hwindow : e.prunes limiters defaults key with _ | window
  · rfl
  · rw [Option.map_some, Option.getD_some, List.filter_filter]
    refine List.filter_congr fun t ht => ?_
    by_cases hp : p t = true
    · rw [decide_eq_true (h t ht hp window hwindow), Bool.and_true]
    · rw [Bool.not_eq_true] at hp
      rw [hp, Bool.false_and]

/-- **The times of a limiter are its own**, at those times where no other limiter has let the key
pass, and none that the limiter has let pass was thrown out. -/
theorem RateRun.filter_bucket (h : RateRun limiters defaults past s) (p : ℤ → Bool)
    (hown : ∀ b ∈ past, ∀ a ∈ b.admission limiters, a.2 = key → p b.now → a.1 = i)
    (hkept : past.Pairwise fun a b => a.admission limiters = some (i, key) → p a.now →
      ∀ window ∈ b.prunes limiters defaults key, b.now - a.now < window) :
    (s.store.bucket key).filter p = (admissions limiters i key past).filter p := by
  induction h with
  | start hs =>
    obtain ⟨clock, rfl⟩ := hs
    rfl
  | @snoc past s s' e h hs ih =>
    obtain ⟨hpast, -, hlast⟩ := List.pairwise_append.mp hkept
    have hsame := ih (fun b hb => hown b (List.mem_append_left _ hb)) hpast
    have hprune : (e.prune limiters defaults key (s.store.bucket key)).filter p =
        (s.store.bucket key).filter p := by
      refine RateTick.filter_prune fun t ht hp => ?_
      -- the time is that of a request of the limiter itself
      have hmem : t ∈ (s.store.bucket key).filter p := List.mem_filter.mpr ⟨ht, hp⟩
      rw [hsame, List.mem_filter] at hmem
      obtain ⟨a, ha, rfl⟩ := List.mem_map.mp hmem.1
      obtain ⟨ha, hadmission⟩ := List.mem_filter.mp ha
      exact hlast a ha e (List.mem_singleton_self e) (of_decide_eq_true hadmission) hp
    have hnew : (if (e.admission limiters).map Prod.snd = some key then [e.now] else []).filter p =
        (if e.admission limiters = some (i, key) then [e.now] else []).filter p := by
      by_cases hp : p e.now = true
      · have hiff : (e.admission limiters).map Prod.snd = some key ↔
            e.admission limiters = some (i, key) := by
          refine ⟨fun hsome => ?_, fun hown' => by rw [hown']; rfl⟩
          obtain ⟨⟨j, key'⟩, hadmission, rfl⟩ := Option.map_eq_some_iff.mp hsome
          have hlast := List.mem_append_right past (List.mem_singleton_self e)
          have hj := hown e hlast _ hadmission rfl hp
          rw [hadmission, ← hj]
        simp only [hiff]
      · split <;> split <;> simp [hp]
    rw [bucket_of_next hs.2, admissions_concat, List.filter_append, List.filter_append, hprune,
      hsame, hnew]

/-- **Nothing comes between a limiter and its times**: when a request comes to it, no other limiter
has let the key pass within its window, and none of the times that it has let pass within its
window was out of the window of a limiter or of the timer that has gone through the times of the
key since. -/
def RateTick.Undisturbed (limiters : ι → RateLimitConfig) (defaults : RateLimitDefaults)
    (past : List (RateTick ι)) (e : RateTick ι) : Prop :=
  match e.event with
  | .request i req =>
    (∀ b ∈ past, ∀ a ∈ b.admission limiters, a.2 = (limiters i).keyGenerator req →
      e.now - b.now < (limiters i).windowMs → a.1 = i) ∧
    past.Pairwise fun a b => a.admission limiters = some (i, (limiters i).keyGenerator req) →
      e.now - a.now < (limiters i).windowMs →
        ∀ window ∈ b.prunes limiters defaults ((limiters i).keyGenerator req),
          b.now - a.now < window
  | .cleanup => True

instance (past : List (RateTick ι)) (e : RateTick ι) :
    Decidable (e.Undisturbed limiters defaults past) := by
  unfold RateTick.Undisturbed
  split <;> infer_instance

/-- **The windows of all limiters are exact.** -/
structure ExactWindows (limiters : ι → RateLimitConfig) (tr : List (RateTick ι)) : Prop where
  /-- A limiter lets a request pass if and only if it has let fewer pass than its bound, of the same
  key and within its window. -/
  admits_iff : ∀ past e i req, past ++ [e] <+: tr → e.event = .request i req →
    (e.admission limiters = some (i, (limiters i).keyGenerator req) ↔
      ((SlidingWindow.recent (limiters i).windowMs e.now
        (admissions limiters i ((limiters i).keyGenerator req) past)).length : ℤ) <
          (limiters i).maxRequests)
  /-- No window of its length, wherever it ends, has more than that. -/
  bounded : ∀ i key, SlidingWindow.Bounded (limiters i).windowMs (limiters i).maxRequests.toNat
    (admissions limiters i key tr)

omit [DecidableEq ι] in
theorem RateTick.event_of_admission (h : e.admission limiters = some (i, key)) :
    ∃ req, e.event = .request i req ∧ (limiters i).keyGenerator req = key := by
  unfold admission at h
  split at h
  · next j req reply hevent _ =>
    split at h
    · obtain ⟨rfl, rfl⟩ := Prod.mk.inj (Option.some.inj h)
      exact ⟨req, hevent, rfl⟩
    · cases h
  · cases h

/-- **A request that nothing has come between is judged rightly.** -/
theorem RateRun.admission_iff (h : RateRun limiters defaults (past ++ [e]) s)
    (hclean : e.Undisturbed limiters defaults past) {req : RateRequest}
    (hevent : e.event = .request i req) :
    e.admission limiters = some (i, (limiters i).keyGenerator req) ↔
      ((SlidingWindow.recent (limiters i).windowMs e.now
        (admissions limiters i ((limiters i).keyGenerator req) past)).length : ℤ) <
          (limiters i).maxRequests := by
  obtain ⟨t, hpast, -, hnext⟩ := h.of_snoc
  have hcounted : (limiters i).counted e.now req t.store =
      SlidingWindow.recent (limiters i).windowMs e.now
        (admissions limiters i ((limiters i).keyGenerator req) past) := by
    rw [RateTick.Undisturbed, hevent] at hclean
    refine RateRun.filter_bucket hpast (fun t => e.now - t < (limiters i).windowMs) ?_ ?_
    · exact fun b hb a ha hkey hrecent => hclean.1 b hb a ha hkey (of_decide_eq_true hrecent)
    · exact hclean.2.imp fun himp hown hrecent => himp hown (of_decide_eq_true hrecent)
  rw [admission_of_next hnext hevent, hcounted]

/-- **Rate limiters are exact** in every run in which nothing comes between a limiter and its
times. -/
theorem RateRun.exact (h : RateRun limiters defaults tr s)
    (hclean : ∀ past e, past ++ [e] <+: tr → e.Undisturbed limiters defaults past) :
    ExactWindows limiters tr := by
  have hiff : ∀ past e i req, past ++ [e] <+: tr → e.event = .request i req →
      (e.admission limiters = some (i, (limiters i).keyGenerator req) ↔
        ((SlidingWindow.recent (limiters i).windowMs e.now
          (admissions limiters i ((limiters i).keyGenerator req) past)).length : ℤ) <
            (limiters i).maxRequests) := by
    intro past e i req hpre hevent
    obtain ⟨later, rfl⟩ := hpre
    obtain ⟨t, hrun, -⟩ := h.split
    exact RateRun.admission_iff hrun (hclean past e (List.prefix_append _ _)) hevent
  refine ⟨hiff, fun i key => ?_⟩
  -- along the run, by what is let pass last
  suffices hall : ∀ past, past <+: tr → SlidingWindow.Bounded (limiters i).windowMs
      (limiters i).maxRequests.toNat (admissions limiters i key past) from
    hall tr (List.prefix_refl tr)
  intro past
  induction past using List.reverseRecOn with
  | nil => exact fun _ => .nil _ _
  | append_singleton past e ih =>
    intro hpre
    have hpast := ih ((List.prefix_append past [e]).trans hpre)
    rw [admissions_concat]
    split
    · next hadmission =>
      obtain ⟨req, hevent, rfl⟩ := RateTick.event_of_admission hadmission
      have hfew := (hiff past e i req hpre hevent).mp hadmission
      exact hpast.concat (by omega)
    · rw [List.append_nil]
      exact hpast

namespace Stage

/-- A request from one address. -/
def rateRequest : RateRequest := ⟨none, some "203.0.113.7", none⟩

/-- A limiter that lets one request pass in a second. -/
def onceASecond : Unit → RateLimitConfig := fun _ =>
  createRateLimiter .unset ⟨some 1, some 1000, none⟩

/-- Three requests, of which one comes too early, and a round of the timer. -/
def hurrying : List (ℤ × RateEvent Unit) :=
  [(0, .request () rateRequest), (10, .request () rateRequest), (20, .cleanup),
    (1000, .request () rateRequest)]

/-- Eleven requests that create an auction, each of which passes through both limiters. -/
def creating : List (ℤ × RateEvent AppLimiter) :=
  (List.replicate 11
    [(0, .request .default rateRequest), (0, .request .strict rateRequest)]).flatten

end Stage

/-- The theorem at one limiter. -/
theorem exact_hurrying : ∃ (tr : List (RateTick Unit)) (s : RateServer),
    RateRun Stage.onceASecond .unset tr s ∧
      admissions Stage.onceASecond () "203.0.113.7" tr = [0, 1000] ∧
        ExactWindows Stage.onceASecond tr := by
  have hplay : (History.replay (RateServer.play Stage.onceASecond .unset) (.initial 0)
      Stage.hurrying).map (fun r => (admissions Stage.onceASecond () "203.0.113.7" r.1,
        r.1.inits.all fun past => past.getLast?.all fun e =>
          decide (e.Undisturbed Stage.onceASecond .unset past.dropLast))) =
            some ([0, 1000], true) := by decide +kernel
  obtain ⟨tr, s, hrun, hv⟩ := RateRun.exists_of_play 0 hplay
  obtain ⟨htimes, hall⟩ := Prod.mk.inj hv
  refine ⟨tr, s, hrun, htimes, RateRun.exact hrun fun past e hpre => ?_⟩
  have hclean := List.all_eq_true.mp hall (past ++ [e]) ((List.mem_inits _ _).mpr hpre)
  rw [List.getLast?_concat, List.dropLast_concat] at hclean
  exact of_decide_eq_true hclean

/-- **A request that passes both limiters counts twice**: the strict limiter refuses the eleventh
one, having let ten pass. -/
theorem exists_counted_twice : ¬∀ (tr : List (RateTick AppLimiter)) (s : RateServer),
    RateRun (appLimiters .unset) .unset tr s → ExactWindows (appLimiters .unset) tr := by
  intro hclaim
  have hplay : (History.replay (RateServer.play (appLimiters .unset) .unset) (.initial 0)
      Stage.creating).map (fun r => ((SlidingWindow.recent 60000 0
        (admissions (appLimiters .unset) .strict "203.0.113.7" r.1.dropLast)).length,
          r.1.getLast?.map fun e => decide (e.now = 0 ∧
            e.event = .request .strict Stage.rateRequest ∧
              e.admission (appLimiters .unset) = none))) = some (10, some true) := by decide +kernel
  obtain ⟨tr, s, hrun, hv⟩ := RateRun.exists_of_play 0 hplay
  obtain ⟨hten, hlast⟩ := Prod.mk.inj hv
  obtain ⟨e, he, hfields⟩ := Option.map_eq_some_iff.mp hlast
  obtain ⟨hnow, hevent, hrefused⟩ := of_decide_eq_true hfields
  have hpre : tr.dropLast ++ [e] <+: tr := by
    rw [List.dropLast_append_getLast? e he]
  have hadmits := ((hclaim tr s hrun).admits_iff _ e .strict Stage.rateRequest hpre hevent).mpr (by
    rw [hnow]
    exact lt_of_eq_of_lt (congrArg Nat.cast hten) (by decide))
  rw [hrefused] at hadmits
  cases hadmits

end UrithiBidz
