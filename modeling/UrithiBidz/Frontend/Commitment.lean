import UrithiBidz.Guarantees.Phases
import UrithiBidz.Library.Hmac
import UrithiBidz.Library.Numeral

/-!
# Sealed bids from the web page

The page of an auction commits to a sealed bid on its own: it draws a salt, computes the
commitment with the browser's HMAC (`crypto.ts`), keeps the salt and the amount, and sends
the commitment and the deposit to the contract. To reveal, it sends what it kept.

Both sides authenticate the same three things, the amount, the auction and the bidder's
address, in 80 bytes. But the contract puts the amount first and the page the auction, so
byte 64 is a character of the address on one side and the top byte of an amount that the
page takes to be below `2 ^ 64` on the other: the messages are never the same
(`UrithiBidz.commitmentMessage_ne`). Unless SHA-256 itself collides, neither are the
commitments, and no bid that was committed from the page can be revealed from it
(`UrithiBidz.Run.unrevealable`).
-/

namespace UrithiBidz

variable {Address : Type}

/-! ### The salt -/

/-- A byte as two hexadecimal digits. -/
def byteHex (b : UInt8) : List Char :=
  let digits := Nat.toDigits 16 b.toNat
  List.replicate (2 - digits.length) '0' ++ digits

/-- The salt as text, as `generateSalt` writes it. -/
def saltText (bytes : List UInt8) : List Char := bytes.flatMap byteHex

/-- The value of a hexadecimal digit. -/
def hexDigit (c : Char) : Option ℕ :=
  if '0' ≤ c ∧ c ≤ '9' then some (c.toNat - '0'.toNat)
  else if 'a' ≤ c ∧ c ≤ 'f' then some (c.toNat - 'a'.toNat + 10)
  else if 'A' ≤ c ∧ c ≤ 'F' then some (c.toNat - 'A'.toNat + 10)
  else none

/-- `parseInt(text, 16)`: white space, a sign and a prefix are skipped, then digits are read
as long as there are any. Without a digit there is no number. -/
def parseInt16 (text : List Char) : Option ℤ :=
  let text := text.dropWhile (·.isWhitespace)
  let (sign, text) : ℤ × List Char := match text with
    | '-' :: rest => (-1, rest)
    | '+' :: rest => (1, rest)
    | rest => (1, rest)
  let text := match text with
    | '0' :: 'x' :: rest => rest
    | '0' :: 'X' :: rest => rest
    | rest => rest
  let digits := (text.takeWhile fun c => (hexDigit c).isSome).filterMap hexDigit
  if digits = [] then none else some (sign * (digits.foldl (fun n d => 16 * n + d) 0 : ℕ))

/-- A number as an element of a byte array: modulo 256, and no number as zero. -/
def toUint8 (n : Option ℤ) : UInt8 := UInt8.ofNat ((n.getD 0) % 256).toNat

/-- Bytes from their hexadecimal digits, two at a time. -/
def hexToBytes : List Char → List UInt8
  | c :: c' :: rest => toUint8 (parseInt16 [c, c']) :: hexToBytes rest
  | [c] => [toUint8 (parseInt16 [c])]
  | [] => []

theorem byteHex_spec (b : UInt8) :
    ∃ c c', byteHex b = [c, c'] ∧ toUint8 (parseInt16 [c, c']) = b := by
  have hall : ∀ n < 256, (byteHex (UInt8.ofNat n)).length = 2 ∧
      toUint8 (parseInt16 (byteHex (UInt8.ofNat n))) = UInt8.ofNat n := by decide +kernel
  obtain ⟨hlen, hread⟩ := hall b.toNat b.toNat_lt
  rw [UInt8.ofNat_toNat] at hlen hread
  obtain ⟨c, c', hpair⟩ := List.length_eq_two.mp hlen
  exact ⟨c, c', hpair, hpair ▸ hread⟩

/-- **A salt reads back as it was written.** -/
theorem hexToBytes_saltText (bytes : List UInt8) : hexToBytes (saltText bytes) = bytes := by
  induction bytes with
  | nil => rfl
  | cons b bytes ih =>
    obtain ⟨c, c', hpair, hread⟩ := byteHex_spec b
    rw [saltText, List.flatMap_cons, hpair]
    change toUint8 (parseInt16 [c, c']) :: hexToBytes (saltText bytes) = _
    rw [hread, ih]

/-- Two digits read as a byte that is written with them. -/
theorem byteHex_pair {c c' : Char} (hc : Numeral.IsHexDigit c) (hc' : Numeral.IsHexDigit c') :
    byteHex (toUint8 (parseInt16 [c, c'])) = [c, c'] := by
  have hall : ∀ n < 16, ∀ n' < 16, byteHex (toUint8 (parseInt16 [n.digitChar, n'.digitChar])) =
      [n.digitChar, n'.digitChar] := by decide +kernel
  obtain ⟨n, hn, rfl⟩ := hc.exists_eq
  obtain ⟨n', hn', rfl⟩ := hc'.exists_eq
  exact hall n hn n' hn'

/-- **Digits are written as they were read**, if they come in pairs. -/
theorem saltText_hexToBytes : ∀ {h : List Char}, h.length % 2 = 0 →
    (∀ c ∈ h, Numeral.IsHexDigit c) → saltText (hexToBytes h) = h
  | [], _, _ => rfl
  | [c], heven, _ => absurd heven Nat.one_ne_zero
  | c :: c' :: rest, heven, hdigits => by
    have hrest : saltText (hexToBytes rest) = rest := by
      refine saltText_hexToBytes ?_ fun d hd =>
        hdigits d (List.mem_cons_of_mem c (List.mem_cons_of_mem c' hd))
      rw [List.length_cons, List.length_cons] at heven
      omega
    have hpair := byteHex_pair (hdigits c List.mem_cons_self)
      (hdigits c' (List.mem_cons_of_mem c List.mem_cons_self))
    change byteHex (toUint8 (parseInt16 [c, c'])) ++ saltText (hexToBytes rest) = _
    rw [hpair, hrest]
    rfl

/-! ### The commitment -/

/-- Pad a text at its end. -/
def padEnd (length : ℕ) (fill : UInt8) (text : List UInt8) : List UInt8 :=
  text ++ List.replicate (length - text.length) fill

/-- The message that the page authenticates: auction, bidder, amount. -/
def commitmentMessage (auctionId : ℤ) (bidderAddress : List UInt8) (amount : ℤ) : List UInt8 :=
  beBytes 8 auctionId ++ (padEnd 56 0x20 bidderAddress).take 56 ++ beBytes 8 0 ++ beBytes 8 amount

/-- The commitment that the page computes, with the HMAC of the browser. -/
def computeCommitment (sha256 : List UInt8 → BytesN 32) (auctionId : ℤ)
    (bidderAddress : List UInt8) (amount : ℤ) (saltBytes : List UInt8) : BytesN 32 :=
  ⟨Hmac.hmac (fun s => (sha256 s).bytes) 64 saltBytes
    (commitmentMessage auctionId bidderAddress amount), (sha256 _).length_eq⟩

/-! ### The page -/

/-- What the page keeps of a sealed bid. -/
structure SavedCommitment where
  amount : I128
  saltHex : List Char

/-- Commit to a sealed bid: what is kept, and what is sent. The amount is what was typed in,
as the integer it is read as, and the salt was just drawn. -/
def handleCommitSealedBid (sha256 : List UInt8 → BytesN 32) (auctionId : U64) (address : Address)
    (addressText : List UInt8) (bidAmount : I128) (saltBytes : BytesN 32) :
    SavedCommitment × Call Address :=
  let commitment := computeCommitment sha256 auctionId.val addressText bidAmount.val saltBytes.bytes
  let depositAmount := bidAmount
  (⟨bidAmount, saltText saltBytes.bytes⟩,
    .commitBid auctionId address commitment depositAmount)

/-- Reveal a sealed bid: what is sent, if what was kept is a salt of 32 bytes. -/
def handleRevealSealedBid (auctionId : U64) (address : Address)
    (savedCommitment : SavedCommitment) : Option (Call Address) :=
  let saltBytes := hexToBytes savedCommitment.saltHex
  if h : saltBytes.length = 32 then
    some (.revealBid auctionId address savedCommitment.amount ⟨saltBytes, h⟩)
  else none

/-- **The page reveals what it has committed to**, with the salt it used. -/
theorem handleRevealSealedBid_saved (sha256 : List UInt8 → BytesN 32) (auctionId : U64)
    (address : Address) (text : List UInt8) (amount : I128) (salt : BytesN 32) :
    handleRevealSealedBid auctionId address
      (handleCommitSealedBid sha256 auctionId address text amount salt).1 =
        some (.revealBid auctionId address amount salt) := by
  have hread : hexToBytes (saltText salt.bytes) = salt.bytes := hexToBytes_saltText salt.bytes
  rw [handleRevealSealedBid, handleCommitSealedBid]
  dsimp only
  rw [dif_pos (by rw [hread, salt.length_eq])]
  simp only [hread]

/-- **Saved salts are recovered**: the text of a salt of any length reads back as its bytes, every
text of pairs of digits is the text of the bytes it reads as, and what is kept of a commitment
yields the salt that it was made with. -/
theorem savedSalt_recovered : (∀ bytes, hexToBytes (saltText bytes) = bytes) ∧
    (∀ h : List Char, h.length % 2 = 0 → (∀ c ∈ h, Numeral.IsHexDigit c) →
      saltText (hexToBytes h) = h) ∧
    ∀ (sha256 : List UInt8 → BytesN 32) (auctionId : U64) (address : Address) (text : List UInt8)
      (amount : I128) (salt : BytesN 32), handleRevealSealedBid auctionId address
        (handleCommitSealedBid sha256 auctionId address text amount salt).1 =
          some (.revealBid auctionId address amount salt) :=
  ⟨hexToBytes_saltText, fun _ => saltText_hexToBytes, handleRevealSealedBid_saved⟩

/-! ### The messages -/

/-- The text of a Stellar address: 56 capital letters and digits. -/
structure StrKey (text : List UInt8) : Prop where
  length : text.length = 56
  base32 : ∀ b ∈ text, (0x41 ≤ b ∧ b ≤ 0x5a) ∨ (0x32 ≤ b ∧ b ≤ 0x37)

instance (text : List UInt8) : Decidable (StrKey text) :=
  decidable_of_iff (text.length = 56 ∧ ∀ b ∈ text, (0x41 ≤ b ∧ b ≤ 0x5a) ∨ (0x32 ≤ b ∧ b ≤ 0x37))
    ⟨fun h => ⟨h.1, h.2⟩, fun h => ⟨h.1, h.2⟩⟩

/-- The contract's HMAC is the same function. -/
theorem bytes_hmacSha256 (env : Env Address) (key : BytesN 32) (message : List UInt8) :
    (hmacSha256 env key message).bytes =
      Hmac.hmac (fun s => (env.sha256 s).bytes) 64 key.bytes message := by
  have hkey : Hmac.blockKey (fun s => (env.sha256 s).bytes) 64 key.bytes =
      key.bytes ++ List.replicate (64 - 32) 0 := by
    rw [Hmac.blockKey_of_le (by rw [key.length_eq]; omega), key.length_eq]
  rw [Hmac.hmac, Hmac.outer, Hmac.inner, hkey]
  rfl

/-- Byte 64 of the page's message is the top byte of the amount, which is zero. -/
theorem getElem?_commitmentMessage {text : List UInt8} (h : text.length = 56)
    (auctionId amount : ℤ) : (commitmentMessage auctionId text amount)[64]? = some 0 := by
  have hpad : padEnd 56 0x20 text = text := by simp [padEnd, h]
  have htake : text.take 56 = text := List.take_of_length_le (by omega)
  rw [commitmentMessage, hpad, htake, List.getElem?_append_left (by simp [h]),
    List.getElem?_append_right (by simp [h])]
  simp [h]

/-- Byte 64 of the contract's message is a character of the address. -/
theorem getElem?_buildCommitmentMessage {env : Env Address} {bidder : Address}
    (h : (env.addressToString bidder).length = 56) (amount : I128) (auctionId : U64) :
    (buildCommitmentMessage env amount auctionId bidder)[64]? =
      (env.addressToString bidder)[40]? := by
  have htake : (env.addressToString bidder).take 64 = env.addressToString bidder :=
    List.take_of_length_le (by omega)
  rw [buildCommitmentMessage, htake, List.getElem?_append_right (by simp)]
  simp

/-- **The two messages are never the same.** -/
theorem commitmentMessage_ne {env : Env Address} {bidder : Address}
    (h : StrKey (env.addressToString bidder)) (auctionId : U64) (amount : I128) (n m : ℤ) :
    commitmentMessage n (env.addressToString bidder) m ≠
      buildCommitmentMessage env amount auctionId bidder := by
  intro heq
  have hpage := getElem?_commitmentMessage h.length n m
  rw [heq, getElem?_buildCommitmentMessage h.length] at hpage
  -- there is no zero in an address
  obtain ⟨hlt, hzero⟩ := List.getElem?_eq_some_iff.mp hpage
  have hchar := h.base32 _ (List.getElem_mem hlt)
  rw [hzero] at hchar
  exact absurd hchar (by decide)

/-! ### The commitments -/

/-- SHA-256 keeps apart what is hashed for two messages under one key. -/
def HashesApart (sha256 : List UInt8 → BytesN 32) (key m m' : List UInt8) : Prop :=
  let hash := fun s => (sha256 s).bytes
  (hash (Hmac.inner hash 64 key m) = hash (Hmac.inner hash 64 key m') →
    Hmac.inner hash 64 key m = Hmac.inner hash 64 key m') ∧
  (hash (Hmac.outer hash 64 key m) = hash (Hmac.outer hash 64 key m') →
    Hmac.outer hash 64 key m = Hmac.outer hash 64 key m')

/-- **The commitments differ**, unless SHA-256 collides. -/
theorem computeCommitment_ne (env : Env Address) {bidder : Address}
    (h : StrKey (env.addressToString bidder)) {auctionId : U64} {amount : I128} {salt : BytesN 32}
    (hsha : HashesApart env.sha256 salt.bytes
      (commitmentMessage auctionId.val (env.addressToString bidder) amount.val)
      (buildCommitmentMessage env amount auctionId bidder)) :
    computeCommitment env.sha256 auctionId.val (env.addressToString bidder) amount.val salt.bytes ≠
      hmacSha256 env salt (buildCommitmentMessage env amount auctionId bidder) := by
  intro heq
  have hbytes : Hmac.hmac (fun s => (env.sha256 s).bytes) 64 salt.bytes
      (commitmentMessage auctionId.val (env.addressToString bidder) amount.val) =
        (hmacSha256 env salt (buildCommitmentMessage env amount auctionId bidder)).bytes :=
    congrArg BytesN.bytes heq
  rw [bytes_hmacSha256] at hbytes
  exact commitmentMessage_ne h auctionId amount _ _ (Hmac.hmac_inj hsha.1 hsha.2 hbytes)

variable [DecidableEq Address]

/-- Where a commitment on record comes from. -/
theorem BookStep.commitments_origin {env : Env Address} {id : U64} {c : Call Address}
    {b b' : Book Address} {calls : List (TokenCall Address)} (h : BookStep env id c b b' calls)
    (hblank : b.BlankPages) {x : Address} {r : BidCommitment Address}
    (hr : b'.commitments x = some r) :
    b.commitments x = some r ∨ c = .commitBid id x r.commitment r.amount := by
  cases h with
  | create hb =>
    rw [hblank hb] at hr
    cases hr
  | finalize =>
    rw [Book.setAuction_commitments, Book.creditLosers_commitments] at hr
    exact Or.inl hr
  | @commit _ a bidder commitment amount ha ok hn =>
    rw [Book.setAuction_commitments, Book.setCommitment_commitments] at hr
    by_cases hx : x = bidder
    · subst hx
      rw [Function.update_self] at hr
      rw [← Option.some.inj hr]
      exact Or.inr rfl
    · rw [Function.update_of_ne hx] at hr
      exact Or.inl hr
  -- a refund deletes the record, it writes none
  | @takeBack _ a bidder =>
    rw [Book.setAuction_commitments, Book.setCommitment_commitments] at hr
    by_cases hx : x = bidder
    · subst hx
      rw [Function.update_self] at hr
      cases hr
    · rw [Function.update_of_ne hx] at hr
      exact Or.inl hr
  | _ => exact Or.inl hr

/-- **Every commitment on record was made by a call.** -/
theorem Life.committed {me : Address} {id : U64} {tr : List (Invocation Address)}
    {p : Book Address × U64} (h : Life me id tr p) : ∀ x r, p.1.commitments x = some r →
      ∃ i ∈ tr, i.call = .commitBid id x r.commitment r.amount := by
  refine induct (P := fun tr b _ => ∀ x r, b.commitments x = some r →
    ∃ i ∈ tr, i.call = .commitBid id x r.commitment r.amount) (fun _ _ _ hr => by cases hr) ?_ h
  intro tr b now env s c s' events calls value b' hl ih hstep _ _ _ _ _ _ x r hr
  rcases hstep.commitments_origin hl.blankPages hr with hold | hcall
  · obtain ⟨i, hi, hcall⟩ := ih x r hold
    exact ⟨i, List.mem_append_left _ hi, hcall⟩
  · exact ⟨_, List.mem_append_right _ (List.mem_singleton_self _), hcall⟩

variable {H : Host Address} {tr : List (Invocation Address)} {w : World H}

/-- A reveal in a run is of a commitment in the run that it matches. -/
theorem Run.verified_of_reveal (h : Run H tr w) {id : U64} {x : Address} {amount : I128}
    {salt : BytesN 32} {j : Invocation Address} (hj : j ∈ tr)
    (hcall : j.call = .revealBid id x amount salt) : ∃ i ∈ tr, ∃ commitment deposit,
      i.call = .commitBid id x commitment deposit ∧
        hmacSha256 j.env salt (buildCommitmentMessage j.env amount id x) = commitment := by
  obtain ⟨past, p, p', hpre, hlife, hs, -, -⟩ :=
    h.lives_of_mem hj (j.about_of_reveals ⟨amount, salt, hcall⟩)
  cases hs with
  | mk hstep =>
    subst hcall
    cases hstep with
    | quiet _ hq => cases hq
    | @reveal _ a _ _ _ stored _ hc ok =>
      obtain ⟨i, hi, hcommit⟩ := hlife.committed x stored hc
      have hmem : i ∈ tr.filter (·.About id) := hpre.subset (List.mem_append_left _ hi)
      exact ⟨i, (List.mem_filter.mp hmem).1, _, _, hcommit, ok.verified⟩

/-- **No sealed bid from the page is ever revealed from it.** The commitment that the page
computes is not the one that the contract computes, and in no run in which it was committed
is it revealed with what the page has kept, unless SHA-256 collides. -/
theorem Run.unrevealable (h : Run H tr w) (t : H.Tokens) (tx : Tx Address) {id : U64}
    {x : Address} {amount : I128} {salt : BytesN 32} (haddr : StrKey (H.addressToString x))
    (hsha : HashesApart H.sha256 salt.bytes
      (commitmentMessage id.val (H.addressToString x) amount.val)
      (buildCommitmentMessage (H.env t tx) amount id x)) :
    computeCommitment H.sha256 id.val (H.addressToString x) amount.val salt.bytes ≠
        hmacSha256 (H.env t tx) salt (buildCommitmentMessage (H.env t tx) amount id x) ∧
      let page := handleCommitSealedBid H.sha256 id x (H.addressToString x) amount salt
      (∃ i ∈ tr, i.call = page.2) →
        ∀ j ∈ tr, some j.call ≠ handleRevealSealedBid id x page.1 := by
  have hne := computeCommitment_ne (H.env t tx) haddr hsha
  refine ⟨hne, ?_⟩
  rintro page ⟨i, hi, hcommit⟩ j hj hreveal
  rw [handleRevealSealedBid_saved] at hreveal
  obtain ⟨i', hi', commitment, deposit, hcommit', hverified⟩ :=
    h.verified_of_reveal hj (Option.some.inj hreveal)
  -- there is only one commitment, and it is the page's
  obtain rfl := h.commit_unique hi hi' ⟨_, _, hcommit⟩ ⟨_, _, hcommit'⟩
  cases hcommit.symm.trans hcommit'
  obtain ⟨past, v, v', -, hs, -⟩ := h.of_mem hj
  cases hs with
  | call => exact hne hverified.symm

/-- The salt of zeros. -/
def Stage.salt : BytesN 32 := BytesN.replicate 32 0

/-- What the page keeps and sends for a bid of a hundred by account 3. -/
def Stage.page : SavedCommitment × Call ℕ :=
  handleCommitSealedBid host.sha256 0 3 (host.addressToString 3) (.of 100) salt

/-- Account 3 commits to a bid of a hundred from the page. -/
def Stage.committing : List (Tx ℕ × Call ℕ) :=
  Stage.opening .sealedBid Stage.painting ++
    [(Stage.signed 2 1, .activateAuction 0), (Stage.signed 3 (.of 2), Stage.page.2)]

/-- The theorem at this bid. -/
theorem unrevealable_committing : ∃ (tr : List (Invocation ℕ)) (w : World Stage.host),
    Run Stage.host tr w ∧ (∃ i ∈ tr, i.call = Stage.page.2) ∧
      ∀ j ∈ tr, some j.call ≠ handleRevealSealedBid 0 3 Stage.page.1 := by
  have hreplay : (replay Stage.start Stage.committing).map (fun r =>
      r.1.any fun i => i.call = Stage.page.2) = some true := by decide +kernel
  obtain ⟨tr, w, hrun, hany⟩ := exists_run_of_replay Stage.world_refl rfl hreplay
  obtain ⟨i, hi, hcall⟩ := List.any_eq_true.mp hany
  have hcommit : ∃ i ∈ tr, i.call = Stage.page.2 := ⟨i, hi, of_decide_eq_true hcall⟩
  have hsha : HashesApart Stage.host.sha256 Stage.salt.bytes
      (commitmentMessage (0 : U64).val (Stage.host.addressToString 3) (.of 100 : I128).val)
      (buildCommitmentMessage (Stage.host.env Stage.start.tokens (Stage.signed 3 0)) (.of 100) 0
        3) := by
    refine ⟨fun h => absurd h ?_, fun h => absurd h ?_⟩ <;> decide +kernel
  have hpage := hrun.unrevealable Stage.start.tokens (Stage.signed 3 0) (by decide +kernel) hsha
  exact ⟨tr, w, hrun, hcommit, hpage.2 hcommit⟩

/-- **The two commitments of a bid of a hundred differ.** -/
theorem exists_commitment_mismatch : ¬∀ (id : U64) (x : ℕ) (amount : I128) (salt : BytesN 32),
    StrKey (Stage.host.addressToString x) → 0 < amount →
      let env := Stage.host.env Stage.start.tokens (Stage.signed x 0)
      computeCommitment env.sha256 id.val (env.addressToString x) amount.val salt.bytes =
        hmacSha256 env salt (buildCommitmentMessage env amount id x) := by
  intro hclaim
  have hsame := hclaim 0 3 (.of 100) Stage.salt (by decide +kernel) (by decide)
  exact absurd hsame (by decide +kernel)

end UrithiBidz
