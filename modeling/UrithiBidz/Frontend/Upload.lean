import Mathlib.Data.List.AList
import UrithiBidz.Indexer.Native
import UrithiBidz.Library.FixedWindow
import UrithiBidz.Library.History
import UrithiBidz.Server.Routes

/-!
# Uploads

Images and metadata of auctions go to a storage outside, through a route of the frontend that keeps
the key to it (`app/api/ipfs/upload/route.ts`). The route counts the requests of each address in
fixed windows of a minute, and refuses the thirty-first. Then it checks the form, the type and the
size of the file, sends the file on, and answers with the name that the storage has given it.

What is counted is kept in a map. When a request is not refused and the map has more than a
thousand entries, those whose window has ended are thrown out. The rest of the route waits for the
form and for the storage, but has no state, so a request is one step (`UrithiBidz.UploadRun`).
-/

namespace UrithiBidz

/-! ### The limiter -/

/-- What is counted, by address. -/
abbrev IpHits := AList fun _ : String => FixedWindow.Window ℤ

namespace Upload

/-- `RATE_LIMIT_WINDOW_MS` -/
def rateLimitWindowMs : ℤ := 60 * 1000

/-- `RATE_LIMIT_MAX` -/
def rateLimitMax : ℕ := 30

end Upload

/-- The entries whose window has not ended. -/
def IpHits.live (now : ℤ) (ipHits : IpHits) : IpHits :=
  ⟨ipHits.entries.filter fun entry => ¬entry.2.reset < now,
    ipHits.nodupKeys.sublist List.filter_sublist⟩

/-- The others are thrown out, if there are many. -/
def IpHits.cleanup (now : ℤ) (ipHits : IpHits) : IpHits :=
  if 1000 < ipHits.entries.length then IpHits.live now ipHits else ipHits

/-- **The limiter**: what is kept, if the request is not refused. -/
def IpHits.limit (now : ℤ) (ip : String) (ipHits : IpHits) : Option IpHits :=
  let counted : Option IpHits :=
    match ipHits.lookup ip with
    | some hit =>
      if now < hit.reset then
        if Upload.rateLimitMax ≤ hit.count then none
        else some (ipHits.insert ip ⟨hit.count + 1, hit.reset⟩)
      else some (ipHits.insert ip ⟨1, now + Upload.rateLimitWindowMs⟩)
    | none => some (ipHits.insert ip ⟨1, now + Upload.rateLimitWindowMs⟩)
  counted.map (cleanup now)

/-! ### The rest of the route -/

/-- A file of a form. -/
structure UploadedFile where
  name : String
  type : String
  bytes : List UInt8

/-- `file.size` -/
def UploadedFile.size (file : UploadedFile) : ℕ := file.bytes.length

/-- What the field of a form has. -/
inductive FormField
  | missing
  | text (value : String)
  | file (file : UploadedFile)

/-- What is sent to the storage. -/
structure PinataUpload where
  authorization : String
  file : UploadedFile
  network : String

/-- What the storage makes of it: it cannot be reached, or cannot be understood; it refuses, for
some reason; or it answers, with the name of the file if all is well. -/
inductive PinataReply
  | threw
  | refused (statusText : String)
  | answered (cid : Option String)
deriving DecidableEq

/-- A request: the header that says where it comes from, and the field of its form, if it has one.
With it goes how the storage would answer while it is served, which may depend on all that is sent
to the storage, the authorization included. -/
structure UploadRequest where
  forwardedFor : Option String
  form : Option FormField
  pinata : PinataUpload → PinataReply

/-- The address that is counted. -/
def UploadRequest.ip (request : UploadRequest) : String :=
  match request.forwardedFor with
  | some forwarded =>
    let ip := String.ofList (trim (forwarded.toList.takeWhile (· ≠ ',')))
    if ip = "" then "anonymous" else ip
  | none => "anonymous"

/-- The environment of the route. -/
structure UploadConfig where
  /-- `PINATA_JWT` -/
  jwt : Option String
  /-- `NEXT_PUBLIC_PINATA_GATEWAY` -/
  gateway : Option String

namespace Upload

open Database (nonEmpty)

/-- `ALLOWED_TYPES` -/
def allowedTypes : List String :=
  ["image/jpeg", "image/png", "image/gif", "image/webp", "image/svg+xml", "application/json",
    "application/pdf"]

/-- `MAX_SIZE` -/
def maxSize : ℕ := 10 * 1024 * 1024

/-- `(size / (1024 * 1024)).toFixed(1)`: the division is exact, and halves are rounded up. -/
def megabytes (size : ℕ) : String :=
  let tenths := (20 * size + 1024 * 1024) / (2 * 1024 * 1024)
  toString (tenths / 10) ++ "." ++ toString (tenths % 10)

/-- An answer with an error. -/
def failure (status : ℕ) (error : String) : Response := ⟨status, .object [("error", .string error)]⟩

/-- A type that is not allowed. A text has none. -/
def wrongType (type : String) : Response :=
  failure 400 ("File type '" ++ type ++ "' not allowed. Allowed types: " ++
    ", ".intercalate allowedTypes)

/-- The answer to what the storage has made of a file. -/
def answer (config : UploadConfig) (file : UploadedFile) : PinataReply → Response
  | .threw => failure 500 "Internal server error during upload"
  | .refused statusText => failure 502 ("Pinata upload failed: " ++ statusText)
  | .answered cid =>
    match nonEmpty cid with
    | none => failure 502 "Pinata response did not include a CID"
    | some cid =>
      let gateway := (nonEmpty config.gateway).getD "https://gateway.pinata.cloud"
      ⟨200, .object [("cid", .string cid), ("ipfsUri", .string ("ipfs://" ++ cid)),
        ("gatewayUrl", .string (gateway ++ "/ipfs/" ++ cid)), ("fileName", .string file.name),
        ("fileSize", .int file.size), ("mimeType", .string file.type)]⟩

/-- **The route behind the limiter**: what is sent to the storage, and the answer. -/
def forward (config : UploadConfig) (request : UploadRequest) : Option PinataUpload × Response :=
  match nonEmpty config.jwt with
  | none => (none, failure 500 "Pinata JWT not configured on server")
  | some jwt =>
    match request.form with
    | none => (none, failure 400 "Invalid form data")
    | some .missing => (none, missingFile)
    | some (.text value) =>
      if value = "" then (none, missingFile) else (none, wrongType "undefined")
    | some (.file file) =>
      if file.type ∉ allowedTypes then (none, wrongType file.type)
      else if maxSize < file.size then
        (none, failure 413 ("File too large (" ++ megabytes file.size ++
          "MB). Max size: 10MB via this API route."))
      else
        let upload : PinataUpload := ⟨"Bearer " ++ jwt, file, "public"⟩
        (some upload, answer config file (request.pinata upload))
where
  /-- The form has no file. -/
  missingFile : Response := failure 400
    "No file provided. Send as multipart/form-data with field name 'file'."

/-- The file of a request may be sent, under a key. -/
structure Sendable (config : UploadConfig) (request : UploadRequest) (jwt : String)
    (file : UploadedFile) : Prop where
  key : nonEmpty config.jwt = some jwt
  form : request.form = some (.file file)
  type : file.type ∈ allowedTypes
  size : file.size ≤ maxSize

/-- **A file that may be sent is sent**, and the answer is that of the storage. -/
theorem forward_of_sendable {config : UploadConfig} {request : UploadRequest} {jwt : String}
    {file : UploadedFile} (h : Sendable config request jwt file) : forward config request =
      (some ⟨"Bearer " ++ jwt, file, "public"⟩,
        answer config file (request.pinata ⟨"Bearer " ++ jwt, file, "public"⟩)) := by
  simp [forward, h.key, h.form, h.type, h.size.not_gt]

/-- **Nothing else is sent**, and the answer is an error, whatever the key. -/
theorem forward_of_not_sendable {config : UploadConfig} {request : UploadRequest}
    (h : ∀ jwt file, ¬Sendable config request jwt file) :
    (forward config request).1 = none ∧ (forward config request).2.status ≠ 200 := by
  unfold forward
  split
  · exact ⟨rfl, by decide⟩
  · next jwt hjwt =>
    split
    · exact ⟨rfl, by decide⟩
    · exact ⟨rfl, by decide⟩
    · split <;> exact ⟨rfl, by simp [forward.missingFile, wrongType, failure]⟩
    · next file hform =>
      split
      · exact ⟨rfl, by simp [wrongType, failure]⟩
      · next htype =>
        split
        · exact ⟨rfl, by simp [failure]⟩
        · next hsize => exact absurd ⟨hjwt, hform, not_not.mp htype, not_lt.mp hsize⟩ (h jwt file)

end Upload

/-! ### The server -/

/-- What is counted, and the time of the last request. -/
structure UploadServer where
  clock : ℤ
  ipHits : IpHits

/-- The server when it has just been started. -/
def UploadServer.initial (clock : ℤ) : UploadServer := ⟨clock, ∅⟩

/-- A request, with its time, whether it has been refused by the limiter, what was sent to the
storage for it, and the answer. -/
structure UploadTick where
  now : ℤ
  request : UploadRequest
  admitted : Bool
  forwarded : Option PinataUpload
  response : Response

/-- **The route**, `POST /api/ipfs/upload`. -/
def UploadServer.post (config : UploadConfig) (now : ℤ) (request : UploadRequest)
    (s : UploadServer) : UploadServer × UploadTick :=
  match s.ipHits.limit now request.ip with
  | none => (⟨now, s.ipHits⟩, ⟨now, request, false, none,
      Upload.failure 429 "Rate limit exceeded. Maximum 30 uploads per minute allowed."⟩)
  | some ipHits =>
    let (forwarded, response) := Upload.forward config request
    (⟨now, ipHits⟩, ⟨now, request, true, forwarded, response⟩)

/-- **The life of the route**: the clock does not go back. -/
abbrev UploadRun (config : UploadConfig) : List UploadTick → UploadServer → Prop :=
  History (fun s => ∃ clock, s = UploadServer.initial clock) fun s i s' =>
    s.clock ≤ i.now ∧ s.post config i.now i.request = (s', i)

variable {config : UploadConfig}

theorem UploadServer.post_of_limit_eq_none {now : ℤ} {request : UploadRequest} {s : UploadServer}
    (h : s.ipHits.limit now request.ip = none) : s.post config now request =
      (⟨now, s.ipHits⟩, ⟨now, request, false, none,
        Upload.failure 429 "Rate limit exceeded. Maximum 30 uploads per minute allowed."⟩) := by
  rw [post, h]

theorem UploadServer.post_of_limit_eq_some {now : ℤ} {request : UploadRequest} {s : UploadServer}
    {ipHits : IpHits} (h : s.ipHits.limit now request.ip = some ipHits) :
    s.post config now request = (⟨now, ipHits⟩, ⟨now, request, true,
      (Upload.forward config request).1, (Upload.forward config request).2⟩) := by
  rw [post, h]

/-- Let a request come, if its time has come. -/
def UploadServer.play (config : UploadConfig) (s : UploadServer) (event : ℤ × UploadRequest) :
    Option (UploadTick × UploadServer) :=
  if s.clock ≤ event.1 then some (s.post config event.1 event.2).swap else none

theorem UploadServer.post_snd (config : UploadConfig) (now : ℤ) (request : UploadRequest)
    (s : UploadServer) : (s.post config now request).2.now = now ∧
      (s.post config now request).2.request = request := by
  unfold post
  split <;> exact ⟨rfl, rfl⟩

/-- **Runs by evaluation.** -/
theorem UploadRun.exists_of_play {γ : Type} (clock : ℤ) {script : List (ℤ × UploadRequest)}
    {f : List UploadTick × UploadServer → γ} {v : γ}
    (h : (History.replay (UploadServer.play config) (.initial clock) script).map f = some v) :
    ∃ tr s, UploadRun config tr s ∧ f (tr, s) = v := by
  refine History.exists_of_replay (fun s event i s' hplay => ?_) ⟨clock, rfl⟩ h
  unfold UploadServer.play at hplay
  split at hplay
  · next hclock =>
    obtain ⟨hnow, hrequest⟩ := UploadServer.post_snd config event.1 event.2 s
    cases hplay
    rw [hnow, hrequest]
    exact ⟨hclock, rfl⟩
  · cases hplay

/-! ### The limiter as one of fixed windows -/

variable {now : ℤ} {ip key : String} {ipHits : IpHits}

theorem IpHits.lookup_live_eq_some_iff {hit : FixedWindow.Window ℤ} :
    (IpHits.live now ipHits).lookup key = some hit ↔
      ipHits.lookup key = some hit ∧ ¬hit.reset < now := by
  have hentry := AList.mem_lookup_iff (a := key) (b := hit) (s := IpHits.live now ipHits)
  rw [Option.mem_def] at hentry
  rw [hentry, live, List.mem_filter, ← AList.mem_lookup_iff, Option.mem_def, decide_eq_true_eq]

/-- **What is thrown out**: entries whose window has ended. -/
theorem IpHits.lookup_cleanup (now : ℤ) (ipHits : IpHits) (key : String) :
    (IpHits.cleanup now ipHits).lookup key = ipHits.lookup key ∨
      (IpHits.cleanup now ipHits).lookup key = none ∧
        FixedWindow.isOpen now (ipHits.lookup key) = false := by
  unfold cleanup
  split
  · rcases hleft : (IpHits.live now ipHits).lookup key with _ | hit
    · rcases hkey : ipHits.lookup key with _ | hit
      · exact Or.inl rfl
      · refine Or.inr ⟨rfl, decide_eq_false fun hopen => ?_⟩
        rw [IpHits.lookup_live_eq_some_iff.mpr ⟨hkey, hopen.not_gt⟩] at hleft
        cases hleft
    · exact Or.inl (IpHits.lookup_live_eq_some_iff.mp hleft).1.symm
  · exact Or.inl rfl

/-- **The limiter judges by the window of the address.** -/
theorem IpHits.limit_eq (now : ℤ) (ip : String) (ipHits : IpHits) : ipHits.limit now ip =
    if FixedWindow.admits Upload.rateLimitMax now (ipHits.lookup ip) then
      some (IpHits.cleanup now (ipHits.insert ip (FixedWindow.next Upload.rateLimitMax
        Upload.rateLimitWindowMs now (ipHits.lookup ip))))
    else none := by
  unfold limit
  rcases ipHits.lookup ip with _ | hit
  · rfl
  · by_cases hopen : now < hit.reset
    · by_cases hfew : Upload.rateLimitMax ≤ hit.count
      · simp [FixedWindow.admits, hopen, hfew]
      · simp [FixedWindow.admits, FixedWindow.next, hopen, hfew, Nat.lt_of_not_le hfew]
    · simp [FixedWindow.admits, FixedWindow.next, hopen]

end UrithiBidz
