import UrithiBidz.Frontend.Upload

/-!
# What the upload route lets pass

The map of the route is shared by all addresses and is cleaned up now and then. Neither shows:
whether a request passes depends on the times of the requests of its own address only, as if each
address had a limiter of fixed windows to itself (`UrithiBidz.UploadRun.limited`). At most sixty
requests of an address pass in a minute, wherever the minute ends, and as soon as more than a
thousand addresses are remembered, all of them have passed within a minute of each other.

The storage only sees files of the types and the size that are allowed. It also sees the key, and
may answer by it, as it does when it refuses a key that it does not know. But the route itself makes
nothing else of the key: under another one that the storage answers alike, the same requests get the
same answers (`UrithiBidz.UploadRun.proxied`).
-/

namespace UrithiBidz

variable {config : UploadConfig} {tr past : List UploadTick} {s s' : UploadServer} {i : UploadTick}
  {key : String}

/-! ### The limiter -/

/-- When an address has asked. -/
def requestTimes (key : String) (tr : List UploadTick) : List ℤ :=
  (tr.filter fun i => i.request.ip = key).map (·.now)

/-- When it was not refused. -/
def admittedTimes (key : String) (tr : List UploadTick) : List ℤ :=
  (tr.filter fun i => i.request.ip = key ∧ i.admitted = true).map (·.now)

theorem requestTimes_concat (key : String) (tr : List UploadTick) (i : UploadTick) :
    requestTimes key (tr ++ [i]) =
      requestTimes key tr ++ if i.request.ip = key then [i.now] else [] := by
  rw [requestTimes, List.filter_append, List.map_append, ← requestTimes]
  by_cases hkey : i.request.ip = key
  · rw [List.filter_cons_of_pos (by simpa using hkey), if_pos hkey]
    rfl
  · rw [List.filter_cons_of_neg (by simpa using hkey), if_neg hkey]
    rfl

theorem admittedTimes_concat (key : String) (tr : List UploadTick) (i : UploadTick) :
    admittedTimes key (tr ++ [i]) =
      admittedTimes key tr ++ if i.request.ip = key ∧ i.admitted = true then [i.now] else [] := by
  rw [admittedTimes, List.filter_append, List.map_append, ← admittedTimes]
  by_cases hkey : i.request.ip = key ∧ i.admitted = true
  · rw [List.filter_cons_of_pos (by simpa using hkey), if_pos hkey]
    rfl
  · rw [List.filter_cons_of_neg (by simpa using hkey), if_neg hkey]
    rfl

/-- The window of an address, if it has a limiter to itself. -/
def ownWindow (key : String) (tr : List UploadTick) : Option (FixedWindow.Window ℤ) :=
  FixedWindow.after Upload.rateLimitMax Upload.rateLimitWindowMs (requestTimes key tr)

theorem ownWindow_concat (key : String) (tr : List UploadTick) (i : UploadTick) :
    ownWindow key (tr ++ [i]) = if i.request.ip = key then
      some (FixedWindow.next Upload.rateLimitMax Upload.rateLimitWindowMs i.now (ownWindow key tr))
    else ownWindow key tr := by
  rw [ownWindow, requestTimes_concat]
  split
  · rw [FixedWindow.after_concat, ← ownWindow]
  · rw [List.append_nil, ← ownWindow]

/-- **What a request does**: it is judged by what is kept of its address. -/
theorem UploadServer.limited_of_post (h : s.post config i.now i.request = (s', i)) :
    s'.clock = i.now ∧
      i.admitted = FixedWindow.admits Upload.rateLimitMax i.now (s.ipHits.lookup i.request.ip) ∧
        s'.ipHits = if i.admitted = true then
          IpHits.cleanup i.now (s.ipHits.insert i.request.ip (FixedWindow.next Upload.rateLimitMax
            Upload.rateLimitWindowMs i.now (s.ipHits.lookup i.request.ip)))
        else s.ipHits := by
  have hlimit := IpHits.limit_eq i.now i.request.ip s.ipHits
  rcases hadmits : FixedWindow.admits Upload.rateLimitMax i.now
    (s.ipHits.lookup i.request.ip) with _ | _
  · rw [hadmits, if_neg Bool.false_ne_true] at hlimit
    rw [UploadServer.post_of_limit_eq_none hlimit] at h
    obtain ⟨rfl, hi⟩ := Prod.mk.inj h
    rw [← congrArg UploadTick.admitted hi]
    exact ⟨rfl, rfl, rfl⟩
  · rw [hadmits, if_pos rfl] at hlimit
    rw [UploadServer.post_of_limit_eq_some hlimit] at h
    obtain ⟨rfl, hi⟩ := Prod.mk.inj h
    rw [← congrArg UploadTick.admitted hi]
    exact ⟨rfl, rfl, rfl⟩

/-- What is kept of an address, against its own window: it is the same, or it was thrown out when
that had ended. -/
def UploadServer.Keeps (s : UploadServer) (key : String)
    (window : Option (FixedWindow.Window ℤ)) : Prop :=
  s.ipHits.lookup key = window ∨
    s.ipHits.lookup key = none ∧ FixedWindow.isOpen s.clock window = false

theorem UploadServer.Keeps.judges {window : Option (FixedWindow.Window ℤ)} {now : ℤ}
    (h : s.Keeps key window) (hnow : s.clock ≤ now) :
    FixedWindow.admits Upload.rateLimitMax now (s.ipHits.lookup key) =
        FixedWindow.admits Upload.rateLimitMax now window ∧
      FixedWindow.next Upload.rateLimitMax Upload.rateLimitWindowMs now (s.ipHits.lookup key) =
        FixedWindow.next Upload.rateLimitMax Upload.rateLimitWindowMs now window := by
  rcases h with heq | ⟨hnone, hended⟩
  · rw [heq]
    exact ⟨rfl, rfl⟩
  · have hended' := FixedWindow.ended_mono hended hnow
    rw [hnone, FixedWindow.admits_of_ended hended', FixedWindow.next_of_ended hended']
    exact ⟨rfl, rfl⟩

theorem UploadServer.Keeps.later {window : Option (FixedWindow.Window ℤ)} {now : ℤ}
    (h : s.Keeps key window) (hnow : s.clock ≤ now) :
    UploadServer.Keeps ⟨now, s.ipHits⟩ key window :=
  h.imp id fun ⟨hnone, hended⟩ => ⟨hnone, FixedWindow.ended_mono hended hnow⟩

theorem UploadServer.Keeps.cleanup {window : Option (FixedWindow.Window ℤ)}
    (h : s.Keeps key window) :
    UploadServer.Keeps ⟨s.clock, IpHits.cleanup s.clock s.ipHits⟩ key window := by
  rcases IpHits.lookup_cleanup s.clock s.ipHits key with hsame | ⟨hnone, hended⟩
  · rw [Keeps, hsame]
    exact h
  · refine Or.inr ⟨hnone, ?_⟩
    rcases h with heq | ⟨-, hended'⟩
    · rwa [← heq]
    · exact hended'

/-- **What is kept of an address is its own window**, up to what has been thrown out. -/
theorem UploadRun.keeps (h : UploadRun config tr s) (key : String) :
    s.Keeps key (ownWindow key tr) := by
  induction h with
  | start hs =>
    obtain ⟨clock, rfl⟩ := hs
    exact Or.inl rfl
  | @snoc tr s s' i h hs ih =>
    obtain ⟨hclock, hpost⟩ := hs
    obtain ⟨hnow, hadmitted, hhits⟩ := UploadServer.limited_of_post hpost
    obtain ⟨clock, ipHits⟩ := s'
    dsimp only at hnow hhits
    obtain rfl := hnow
    rw [ownWindow_concat]
    rcases hadm : i.admitted with _ | _
    · rw [hadm, if_neg Bool.false_ne_true] at hhits
      obtain rfl := hhits
      split
      · next hkey =>
        rw [hadm, hkey, (ih.judges hclock).1] at hadmitted
        rw [FixedWindow.next_of_refused hadmitted.symm]
        exact ih.later hclock
      · exact ih.later hclock
    · rw [hadm, if_pos rfl] at hhits
      obtain rfl := hhits
      -- the map is written, and cleaned up if it has grown too large
      refine UploadServer.Keeps.cleanup (s := ⟨i.now, _⟩) ?_
      split
      · next hkey =>
        rw [hkey, (ih.judges hclock).2]
        exact Or.inl (AList.lookup_insert _)
      · next hkey =>
        have hsame : ∀ window, (s.ipHits.insert i.request.ip window).lookup key =
            s.ipHits.lookup key := fun _ => AList.lookup_insert_ne (Ne.symm hkey)
        exact (ih.later hclock).imp (hsame _).trans (And.imp_left (hsame _).trans)

/-- **A request is judged as if its address were alone.** -/
theorem UploadRun.admitted_iff (h : UploadRun config (past ++ [i]) s) :
    i.admitted =
      FixedWindow.admits Upload.rateLimitMax i.now (ownWindow i.request.ip past) := by
  obtain ⟨t, hpast, hclock, hpost⟩ := h.of_snoc
  rw [(UploadServer.limited_of_post hpost).2.1,
    ((UploadRun.keeps hpast i.request.ip).judges hclock).1]

/-- **What passes, passes the own limiter of the address.** -/
theorem UploadRun.admittedTimes_eq (h : UploadRun config tr s) (key : String) :
    admittedTimes key tr = FixedWindow.passes Upload.rateLimitMax Upload.rateLimitWindowMs
      (requestTimes key tr) := by
  induction h with
  | start => rfl
  | @snoc tr s s' i h hs ih =>
    have hadmitted := UploadRun.admitted_iff (h.snoc hs)
    rw [admittedTimes_concat, requestTimes_concat, ih]
    by_cases hkey : i.request.ip = key
    · rw [if_pos hkey, FixedWindow.passes_concat, ← ownWindow, ← hkey, ← hadmitted]
      simp
    · rw [if_neg hkey, if_neg fun hboth => hkey hboth.1, List.append_nil, List.append_nil]

/-- Requests come in the order of their times. -/
theorem UploadRun.sorted (h : UploadRun config tr s) :
    (∀ i ∈ tr, i.now ≤ s.clock) ∧ tr.Pairwise fun i j => i.now ≤ j.now := by
  induction h with
  | start => exact ⟨fun i hi => absurd hi List.not_mem_nil, .nil⟩
  | @snoc tr s s' i h hs ih =>
    obtain ⟨hclock, hpost⟩ := hs
    obtain ⟨hearlier, hsorted⟩ := ih
    have hnow := (UploadServer.limited_of_post hpost).1
    have hlate : ∀ j ∈ tr, j.now ≤ i.now := fun j hj => (hearlier j hj).trans hclock
    constructor
    · intro j hj
      rcases List.mem_append.mp hj with hj | hj
      · exact (hlate j hj).trans hnow.ge
      · rw [List.mem_singleton.mp hj]
        exact hnow.ge
    · refine List.pairwise_append.mpr ⟨hsorted, List.pairwise_singleton _ _, ?_⟩
      intro j hj k hk
      rw [List.mem_singleton.mp hk]
      exact hlate j hj

/-- **What is remembered**: an address for its window, which one of its requests has opened; and if
there are many, none whose window had ended when the last request passed. -/
def UploadServer.Remembers (tr : List UploadTick) (s : UploadServer) : Prop :=
  ∀ key hit, s.ipHits.lookup key = some hit →
    (∃ i ∈ tr, i.request.ip = key ∧ i.admitted = true ∧
      hit.reset = i.now + Upload.rateLimitWindowMs) ∧
        (1000 < s.ipHits.entries.length → ∀ j ∈ tr, j.admitted = true → j.now ≤ hit.reset)

theorem UploadRun.remembers (h : UploadRun config tr s) : s.Remembers tr := by
  induction h with
  | start hs =>
    obtain ⟨clock, rfl⟩ := hs
    rintro key hit ⟨⟩
  | @snoc tr s s' i h hs ih =>
    obtain ⟨hclock, hpost⟩ := hs
    obtain ⟨-, -, hhits⟩ := UploadServer.limited_of_post hpost
    have hearlier := (UploadRun.sorted h).1
    intro key hit hlookup
    rcases hadm : i.admitted with _ | _
    · rw [hadm, if_neg Bool.false_ne_true] at hhits
      rw [hhits] at hlookup ⊢
      obtain ⟨⟨j, hj, hopened⟩, hlive⟩ := ih key hit hlookup
      refine ⟨⟨j, List.mem_append_left _ hj, hopened⟩, fun hmany k hk hpasses => ?_⟩
      rcases List.mem_append.mp hk with hk | hk
      · exact hlive hmany k hk hpasses
      · rw [List.mem_singleton.mp hk, hadm] at hpasses
        cases hpasses
    · rw [hadm, if_pos rfl] at hhits
      rw [hhits] at hlookup ⊢
      -- what is in the map after the cleaning was in it before
      have hinserted : (s.ipHits.insert i.request.ip (FixedWindow.next Upload.rateLimitMax
          Upload.rateLimitWindowMs i.now (s.ipHits.lookup i.request.ip))).lookup key =
            some hit := by
        rcases IpHits.lookup_cleanup i.now _ key with hsame | ⟨hnone, -⟩
        · exact hsame.symm.trans hlookup
        · rw [hnone] at hlookup
          cases hlookup
      constructor
      · by_cases hkey : key = i.request.ip
        · obtain rfl := hkey
          rw [AList.lookup_insert] at hinserted
          obtain rfl := Option.some.inj hinserted
          rcases FixedWindow.reset_next Upload.rateLimitMax Upload.rateLimitWindowMs i.now
            (s.ipHits.lookup i.request.ip) with hopened | ⟨w, hw, hreset⟩
          · exact ⟨i, by simp, rfl, hadm, hopened⟩
          · obtain ⟨⟨j, hj, hip, hpasses, hopened⟩, -⟩ := ih _ w hw
            exact ⟨j, List.mem_append_left _ hj, hip, hpasses, hreset.trans hopened⟩
        · rw [AList.lookup_insert_ne hkey] at hinserted
          obtain ⟨⟨j, hj, hopened⟩, -⟩ := ih key hit hinserted
          exact ⟨j, List.mem_append_left _ hj, hopened⟩
      · intro hmany j hj _
        -- a map that is still too large holds windows that have not ended
        have hlive : ¬hit.reset < i.now := by
          unfold IpHits.cleanup at hlookup hmany
          split at hmany
          · next hbefore =>
            rw [if_pos hbefore] at hlookup
            exact (IpHits.lookup_live_eq_some_iff.mp hlookup).2
          · next hfew => exact absurd hmany hfew
        refine le_trans ?_ (not_lt.mp hlive)
        rcases List.mem_append.mp hj with hj | hj
        · exact (hearlier j hj).trans hclock
        · rw [List.mem_singleton.mp hj]

/-- **How many requests of an address pass**, in a run and at its end. -/
structure UploadLimits (tr : List UploadTick) (s : UploadServer) : Prop where
  /-- Each is judged by the times at which its address has asked before. -/
  alone : ∀ past i, past ++ [i] <+: tr → i.admitted =
    FixedWindow.admits 30 i.now (FixedWindow.after 30 60000 (requestTimes i.request.ip past))
  /-- So the times at which an address has asked tell when it was let pass. -/
  admitted : ∀ key, admittedTimes key tr = FixedWindow.passes 30 60000 (requestTimes key tr)
  /-- That is sixty times in a minute at most. -/
  bounded : ∀ key, SlidingWindow.Bounded 60000 60 (admittedTimes key tr)
  /-- The map has no more than a thousand addresses, or only such that were let pass within a
  minute before the last that was. -/
  remembered : s.ipHits.entries.length ≤ 1000 ∨ ∀ key ∈ s.ipHits, ∃ i ∈ tr,
    i.request.ip = key ∧ i.admitted = true ∧ ∀ j ∈ tr, j.admitted = true → j.now ≤ i.now + 60000

/-- **Every run of the route is so limited.** -/
theorem UploadRun.limited (h : UploadRun config tr s) : UploadLimits tr s := by
  refine ⟨?_, UploadRun.admittedTimes_eq h, fun key => ?_, ?_⟩
  · rintro past i ⟨later, rfl⟩
    obtain ⟨t, hrun, -⟩ := h.split
    exact UploadRun.admitted_iff hrun
  · rw [UploadRun.admittedTimes_eq h]
    refine FixedWindow.bounded (by decide) (by decide) ?_
    rw [requestTimes, List.pairwise_map]
    exact (UploadRun.sorted h).2.sublist List.filter_sublist
  · refine (le_or_gt s.ipHits.entries.length 1000).imp id fun hmany key hkey => ?_
    obtain ⟨hit, hlookup⟩ := Option.isSome_iff_exists.mp (AList.lookup_isSome.mpr hkey)
    obtain ⟨⟨i, hi, hip, hpasses, hopened⟩, hlive⟩ := UploadRun.remembers h key hit hlookup
    refine ⟨i, hi, hip, hpasses, fun j hj hlast => ?_⟩
    exact (hlive hmany j hj hlast).trans (le_of_eq hopened)

namespace Stage

/-- A request to upload some text, which the storage takes under the two keys that it knows. -/
def uploading : UploadRequest where
  forwardedFor := some "203.0.113.7, 198.51.100.1"
  form := some (.file ⟨"terms.json", "application/json", [123, 125]⟩)
  pinata := fun upload =>
    if upload.authorization ∈ ["Bearer secret", "Bearer another"] then .answered (some "bafytext")
    else .refused "Unauthorized"

/-- Where it goes. -/
def uploads : UploadConfig := ⟨some "secret", none⟩

/-- Thirty-one requests at the end of a minute, and one in the next. -/
def hoarding : List (ℤ × UploadRequest) :=
  (0, uploading) :: List.replicate 30 (59999, uploading) ++ [(60000, uploading)]

end Stage

/-- The theorem at these requests: one is refused. -/
theorem limited_hoarding : ∃ (tr : List UploadTick) (s : UploadServer),
    UploadRun Stage.uploads tr s ∧ tr.length = 32 ∧
      (admittedTimes "203.0.113.7" tr).length = 31 ∧ UploadLimits tr s := by
  have hplay : (History.replay (UploadServer.play Stage.uploads) (.initial 0)
      Stage.hoarding).map (fun r => (r.1.length, (admittedTimes "203.0.113.7" r.1).length)) =
        some (32, 31) := by
    decide +kernel
  obtain ⟨tr, s, hrun, hv⟩ := UploadRun.exists_of_play 0 hplay
  simp only [Prod.mk.injEq] at hv
  exact ⟨tr, s, hrun, hv.1, hv.2, UploadRun.limited hrun⟩

/-! ### The storage and its key -/

/-- **What the route does for a request**: what the storage sees, and what the client is told. -/
structure UploadTick.Proxied (config : UploadConfig) (i : UploadTick) : Prop where
  /-- The storage sees the file of the form, if it is one of those that are allowed. -/
  sent_iff : ∀ upload, i.forwarded = some upload ↔ i.admitted = true ∧
    i.request.form = some (.file upload.file) ∧ upload.file.type ∈ Upload.allowedTypes ∧
      upload.file.size ≤ 10485760 ∧ upload.network = "public" ∧
        ∃ jwt, config.jwt = some jwt ∧ jwt ≠ "" ∧ upload.authorization = "Bearer " ++ jwt
  /-- The upload succeeds exactly if the storage has given the file a name. -/
  succeeds_iff : i.response.status = 200 ↔ ∃ upload, i.forwarded = some upload ∧
    ∃ cid, i.request.pinata upload = .answered (some cid) ∧ cid ≠ ""
  /-- The client is told this name. -/
  named : i.response.status = 200 → ∀ upload, i.forwarded = some upload →
    ∀ cid, i.request.pinata upload = .answered (some cid) →
      i.response.body.prop "cid" = .string cid ∧
        i.response.body.prop "ipfsUri" = .string ("ipfs://" ++ cid)

theorem Upload.status_answer_iff (config : UploadConfig) (file : UploadedFile)
    (pinata : PinataReply) : (Upload.answer config file pinata).status = 200 ↔
      ∃ cid, pinata = .answered (some cid) ∧ cid ≠ "" := by
  rcases pinata with _ | statusText | cid
  · simp [answer, failure]
  · simp [answer, failure]
  · rcases hcid : Database.nonEmpty cid with _ | name
    · simp only [answer, hcid, failure]
      refine iff_of_false (by decide) ?_
      rintro ⟨name, heq, hname⟩
      rw [PinataReply.answered.inj heq, Database.nonEmpty_eq_some_iff.mpr ⟨rfl, hname⟩] at hcid
      cases hcid
    · obtain ⟨rfl, hname⟩ := Database.nonEmpty_eq_some_iff.mp hcid
      simp [answer, hcid, hname]

theorem Upload.body_answer (config : UploadConfig) (file : UploadedFile) {cid : String}
    (hcid : cid ≠ "") :
    (Upload.answer config file (.answered (some cid))).body.prop "cid" = .string cid ∧
      (Upload.answer config file (.answered (some cid))).body.prop "ipfsUri" =
        .string ("ipfs://" ++ cid) := by
  simp only [answer, Database.nonEmpty_eq_some_iff.mpr ⟨rfl, hcid⟩]
  exact ⟨rfl, rfl⟩

/-- **What the route does behind the limiter.** -/
theorem Upload.proxied_forward (config : UploadConfig) (now : ℤ) (request : UploadRequest) :
    UploadTick.Proxied config ⟨now, request, true, (Upload.forward config request).1,
      (Upload.forward config request).2⟩ := by
  by_cases hsend : ∃ jwt file, Upload.Sendable config request jwt file
  · obtain ⟨jwt, file, hsend⟩ := hsend
    obtain ⟨hkey, hjwt⟩ := Database.nonEmpty_eq_some_iff.mp hsend.key
    rw [forward_of_sendable hsend]
    refine ⟨fun upload => ⟨?_, ?_⟩, ?_, ?_⟩
    · intro heq
      obtain rfl := Option.some.inj heq
      exact ⟨rfl, hsend.form, hsend.type, hsend.size, rfl, jwt, hkey, hjwt, rfl⟩
    · rintro ⟨-, hform, -, -, hnetwork, jwt', hkey', -, hauth⟩
      obtain ⟨authorization, file', network⟩ := upload
      dsimp only at hform hnetwork hauth ⊢
      obtain rfl := FormField.file.inj (Option.some.inj (hsend.form.symm.trans hform))
      obtain rfl := Option.some.inj (hkey.symm.trans hkey')
      rw [hauth, hnetwork]
    · rw [status_answer_iff]
      simp only [Option.some.injEq, exists_eq_left']
    · rintro hok upload hsent cid hpinata
      obtain rfl := Option.some.inj hsent
      dsimp only at hok hpinata ⊢
      rw [hpinata] at hok ⊢
      obtain ⟨cid', heq, hcid⟩ := (status_answer_iff config file _).mp hok
      obtain rfl := Option.some.inj (PinataReply.answered.inj heq)
      exact body_answer config file hcid
  · obtain ⟨hnone, hfailed⟩ := forward_of_not_sendable fun jwt file h => hsend ⟨jwt, file, h⟩
    refine ⟨fun upload => ⟨?_, ?_⟩, ?_, fun hok => absurd hok hfailed⟩
    · intro heq
      cases hnone.symm.trans heq
    · rintro ⟨-, hform, htype, hsize, -, jwt, hkey, hjwt, -⟩
      have hset := Database.nonEmpty_eq_some_iff.mpr ⟨hkey, hjwt⟩
      exact absurd ⟨jwt, upload.file, hset, hform, htype, hsize⟩ hsend
    · refine iff_of_false hfailed ?_
      rintro ⟨upload, hsent, -⟩
      cases hnone.symm.trans hsent

/-- **Every request is so treated.** -/
theorem UploadServer.proxied_post (h : s.post config i.now i.request = (s', i)) :
    i.Proxied config := by
  rcases hlimit : s.ipHits.limit i.now i.request.ip with _ | hits
  · rw [UploadServer.post_of_limit_eq_none hlimit] at h
    rw [← (Prod.mk.inj h).2]
    refine ⟨fun upload => ⟨?_, ?_⟩, ?_, ?_⟩
    · rintro ⟨⟩
    · rintro ⟨⟨⟩, -⟩
    · refine iff_of_false (by simp [Upload.failure]) ?_
      rintro ⟨upload, ⟨⟩, -⟩
    · intro hok
      exact absurd hok (by simp [Upload.failure])
  · rw [UploadServer.post_of_limit_eq_some hlimit] at h
    rw [← (Prod.mk.inj h).2]
    exact Upload.proxied_forward config i.now i.request

/-- What is seen of a request without the key: its time, the request, the answer, and the file that
was sent. -/
def UploadTick.seen (i : UploadTick) : ℤ × UploadRequest × Response × Option UploadedFile :=
  (i.now, i.request, i.response, i.forwarded.map (·.file))

/-- The storage answers what was sent for a request, if anything was, as it would have under the key
of another environment. -/
def UploadTick.AnsweredAlike (config' : UploadConfig) (i : UploadTick) : Prop :=
  ∀ upload ∈ i.forwarded, ∀ jwt ∈ config'.jwt,
    i.request.pinata { upload with authorization := "Bearer " ++ jwt } = i.request.pinata upload

instance (config' : UploadConfig) (i : UploadTick) : Decidable (i.AnsweredAlike config') :=
  Option.decidableForallMem i.forwarded

/-- The route does the same under another key, if the storage does. -/
theorem Upload.forward_congr {config' : UploadConfig} (hgateway : config'.gateway = config.gateway)
    (hkey : (Database.nonEmpty config'.jwt).isSome = (Database.nonEmpty config.jwt).isSome)
    {request : UploadRequest}
    (halike : ∀ upload ∈ (Upload.forward config request).1, ∀ jwt ∈ config'.jwt,
      request.pinata { upload with authorization := "Bearer " ++ jwt } = request.pinata upload) :
    (Upload.forward config' request).2 = (Upload.forward config request).2 ∧
      (Upload.forward config' request).1.map (·.file) =
        (Upload.forward config request).1.map (·.file) := by
  rcases hjwt : Database.nonEmpty config.jwt with _ | jwt
  · rw [hjwt, Option.isSome_none, Option.isSome_eq_false_iff, Option.isNone_iff_eq_none] at hkey
    simp only [forward, hjwt, hkey, and_self]
  · rw [hjwt, Option.isSome_some, Option.isSome_iff_exists] at hkey
    obtain ⟨jwt', hjwt'⟩ := hkey
    rcases hform : request.form with _ | _ | value | file
    · simp only [forward, hjwt, hjwt', hform, and_self]
    · simp only [forward, hjwt, hjwt', hform, and_self]
    · simp only [forward, hjwt, hjwt', hform, and_self]
    · by_cases htype : file.type ∈ allowedTypes
      · rcases le_or_gt file.size maxSize with hsize | hsize
        · -- the only case in which the key leaves the route
          have hsend : Sendable config request jwt file := ⟨hjwt, hform, htype, hsize⟩
          have hsent := forward_of_sendable hsend
          have hreply := halike _ (congrArg Prod.fst hsent) jwt'
            (Database.nonEmpty_eq_some_iff.mp hjwt').1
          rw [forward_of_sendable ⟨hjwt', hform, htype, hsize⟩, hsent]
          dsimp only at hreply ⊢
          rw [hreply]
          exact ⟨by unfold answer; rw [hgateway], rfl⟩
        · simp [forward, hjwt, hjwt', hform, htype, hsize]
      · simp [forward, hjwt, hjwt', hform, htype]

/-- **The key stays with the route**: in every run all requests are so treated, and under another
key, if the storage answers alike what was sent to it, the same requests are seen, with the same
answers. -/
theorem UploadRun.proxied (h : UploadRun config tr s) {config' : UploadConfig}
    (hgateway : config'.gateway = config.gateway)
    (hkey : (Database.nonEmpty config'.jwt).isSome = (Database.nonEmpty config.jwt).isSome)
    (halike : ∀ i ∈ tr, i.AnsweredAlike config') :
    (∀ i ∈ tr, i.Proxied config) ∧
      ∃ tr', UploadRun config' tr' s ∧ tr'.map UploadTick.seen = tr.map UploadTick.seen := by
  induction h with
  | start hs => exact ⟨fun i hi => absurd hi List.not_mem_nil, [], .start hs, rfl⟩
  | @snoc tr s s' i h hs ih =>
    obtain ⟨hclock, hpost⟩ := hs
    obtain ⟨hall, tr', hrun, hseen⟩ := ih fun j hj => halike j (List.mem_append_left _ hj)
    constructor
    · intro j hj
      rcases List.mem_append.mp hj with hj | hj
      · exact hall j hj
      · rw [List.mem_singleton.mp hj]
        exact UploadServer.proxied_post hpost
    · obtain ⟨hnow, hrequest⟩ := UploadServer.post_snd config' i.now i.request s
      have hsame : (s.post config' i.now i.request).1 = s' ∧
          (s.post config' i.now i.request).2.seen = i.seen := by
        -- the limiter does not look at the settings
        rcases hlimit : s.ipHits.limit i.now i.request.ip with _ | hits
        · rw [UploadServer.post_of_limit_eq_none hlimit] at hpost ⊢
          obtain ⟨rfl, hi⟩ := Prod.mk.inj hpost
          exact ⟨rfl, congrArg UploadTick.seen hi⟩
        · rw [UploadServer.post_of_limit_eq_some hlimit] at hpost ⊢
          obtain ⟨rfl, hi⟩ := Prod.mk.inj hpost
          have hlast : i.AnsweredAlike config' := halike i (by simp)
          rw [UploadTick.AnsweredAlike, ← congrArg UploadTick.forwarded hi] at hlast
          obtain ⟨hresponse, hfile⟩ := Upload.forward_congr hgateway hkey hlast
          refine ⟨rfl, Eq.trans ?_ (congrArg UploadTick.seen hi)⟩
          simp only [UploadTick.seen, hresponse, hfile]
      refine ⟨tr' ++ [(s.post config' i.now i.request).2], hrun.snoc ⟨?_, ?_⟩, ?_⟩
      · rw [hnow]
        exact hclock
      · rw [hnow, hrequest, ← hsame.1]
      · rw [List.map_append, List.map_append, hseen, List.map_singleton, List.map_singleton,
          hsame.2]

/-- The theorem at the requests above, under the two keys that the storage knows. -/
theorem proxied_hoarding : ∃ (tr : List UploadTick) (s : UploadServer),
    UploadRun Stage.uploads tr s ∧
      (tr.filter fun i => i.response.status = 200).length = 31 ∧
        ((∀ i ∈ tr, i.Proxied Stage.uploads) ∧
          ∃ tr', UploadRun ⟨some "another", none⟩ tr' s ∧
            tr'.map UploadTick.seen = tr.map UploadTick.seen) := by
  have hplay : (History.replay (UploadServer.play Stage.uploads) (.initial 0)
      Stage.hoarding).map (fun r => ((r.1.filter fun i => i.response.status = 200).length,
        decide (∀ i ∈ r.1, i.AnsweredAlike ⟨some "another", none⟩))) = some (31, true) := by
    decide +kernel
  obtain ⟨tr, s, hrun, hv⟩ := UploadRun.exists_of_play 0 hplay
  obtain ⟨hsucceeded, halike⟩ := Prod.mk.inj hv
  refine ⟨tr, s, hrun, hsucceeded, ?_⟩
  exact UploadRun.proxied hrun rfl (by decide +kernel) (of_decide_eq_true halike)

end UrithiBidz
