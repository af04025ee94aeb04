import UrithiBidz.Contract.Lifecycle
import UrithiBidz.Ledger.Replay
import UrithiBidz.Server.Routes

/-!
# The pre-flight of a new auction

Before an auction is created, the backend tells the seller whether the contract will take its
terms. What it answers is worth something if the contract, called with the same terms
(`UrithiBidz.SameParameters`), then does create the auction.

Two of the contract's checks are made by the backend, that the rates fit together and that the
auction ends after it starts. The others are not: the cap on the royalty, which is a setting of the
platform, and all that depends on the format, since the fields that are for one format only are
optional for all of them. So the answer is right exactly if these hold of the body by themselves
(`UrithiBidz.TermsFit`, `UrithiBidz.createPreflight_iff`), and a body without an increment is
answered to be valid and then refused (`UrithiBidz.exists_refused_terms`).
-/

namespace UrithiBidz

open Schema (Documented)

variable {Address : Type}

/-! ### The same parameters -/

/-- `BigInt(body.name || "0")`, for the amounts of the body. -/
def amountIn (body : Json) (name : String) : ℤ :=
  (bigIntOf ((body.prop name).orElse (.string "0"))).getD 0

/-- `body.name || 0`, for the numbers of the body. -/
def numberIn (body : Json) (name : String) : ℤ := ((body.prop name).orElse (.int 0)).toInt.getD 0

/-- The name of a format. -/
def formatName : AuctionFormat → String
  | .english => "english"
  | .dutch => "dutch"
  | .sealedBid => "sealed_bid"

/-- **The call has the parameters of the body**, as far as the contract checks them. What is
missing in the body is zero in the call. -/
structure SameParameters (body : Json) (params : CreateAuctionParams Address) : Prop where
  format : body.prop "format" = .string (formatName params.format)
  reservePrice : params.reservePrice.val = amountIn body "reserve_price"
  royaltyBps : params.royaltyBps.val = numberIn body "royalty_bps"
  startTime : params.startTime.val = numberIn body "start_time"
  endTime : params.endTime.val = numberIn body "end_time"
  minIncrement : params.minIncrement.val = amountIn body "min_increment"
  startPrice : params.startPrice.val = amountIn body "start_price"
  priceDecayPerSecond : params.priceDecayPerSecond.val = amountIn body "price_decay_per_second"
  commitDeadline : params.commitDeadline.val = numberIn body "commit_deadline"
  revealDeadline : params.revealDeadline.val = numberIn body "reveal_deadline"

/-- **What the backend does not check**: that the royalty is not above a cap, and that what is for
the format is there and in order. -/
structure TermsFit (maxRoyaltyBps : ℤ) (body : Json) : Prop where
  royalty : numberIn body "royalty_bps" ≤ maxRoyaltyBps
  english : body.prop "format" = .string "english" → 0 < amountIn body "min_increment"
  dutch : body.prop "format" = .string "dutch" →
    amountIn body "reserve_price" < amountIn body "start_price" ∧
      0 < amountIn body "price_decay_per_second"
  sealed : body.prop "format" = .string "sealed_bid" →
    numberIn body "start_time" < numberIn body "commit_deadline" ∧
      numberIn body "commit_deadline" < numberIn body "reveal_deadline" ∧
      numberIn body "reveal_deadline" ≤ numberIn body "end_time"

/-! ### The answer and the contract -/

theorem numberIn_of_int {body : Json} {name : String} {n : ℤ} (h : body.prop name = .int n) :
    numberIn body name = n := by
  rw [numberIn, h, Json.int_orElse_zero, Json.toInt_int, Option.getD_some]

theorem SameParameters.format_iff {body : Json} {params : CreateAuctionParams Address}
    (h : SameParameters body params) (format : AuctionFormat) :
    body.prop "format" = .string (formatName format) ↔ params.format = format := by
  rw [h.format, Json.string.injEq]
  constructor
  · intro hname
    cases hparams : params.format <;> cases format <;> rw [hparams] at hname <;>
      first | rfl | exact absurd hname (by decide)
  · rintro rfl
    rfl

variable {parse : Schema → Json → Schema.Outcome} {body : Json} {env : Env Address}
  {s : Storage Address} {config : PlatformConfig Address} {params : CreateAuctionParams Address}

/-- **The checks of the contract are those that the answer guarantees, and those it does not.** -/
theorem SameParameters.accepts_iff (hsame : SameParameters body params)
    (hauth : env.auth params.seller = true) (hunpaused : config.paused = false)
    (hfees : params.royaltyBps.val + config.defaultPlatformFeeBps.val ≤ 10000)
    (htimes : params.startTime < params.endTime) :
    AcceptsAuction env params config ↔ TermsFit config.maxRoyaltyBps.val body := by
  constructor
  · intro ok
    refine ⟨?_, fun hf => ?_, fun hf => ?_, fun hf => ?_⟩
    · rw [← hsame.royaltyBps]
      exact ok.royalty
    · rw [← hsame.minIncrement]
      exact ok.english ((hsame.format_iff .english).mp hf)
    · rw [← hsame.reservePrice, ← hsame.startPrice, ← hsame.priceDecayPerSecond]
      exact ok.dutch ((hsame.format_iff .dutch).mp hf)
    · rw [← hsame.startTime, ← hsame.commitDeadline, ← hsame.revealDeadline, ← hsame.endTime]
      exact ok.sealed ((hsame.format_iff .sealedBid).mp hf)
  · intro h
    refine ⟨hauth, hunpaused, ?_, ?_, htimes, fun hf => ?_, fun hf => ?_, fun hf => ?_⟩
    · rw [Ranged.le_iff, hsame.royaltyBps]
      exact h.royalty
    · rw [Ranged.le_iff, Ranged.val_saturatingAdd, Ranged.val_of]
      -- the fees add up to at most everything, so the sum is not clamped
      omega
    · have hincrement := h.english ((hsame.format_iff .english).mpr hf)
      rw [← hsame.minIncrement] at hincrement
      exact hincrement
    · have hprices := h.dutch ((hsame.format_iff .dutch).mpr hf)
      rw [← hsame.reservePrice, ← hsame.startPrice, ← hsame.priceDecayPerSecond] at hprices
      exact hprices
    · have hdeadlines := h.sealed ((hsame.format_iff .sealedBid).mpr hf)
      rw [← hsame.startTime, ← hsame.commitDeadline, ← hsame.revealDeadline, ← hsame.endTime]
        at hdeadlines
      exact hdeadlines

/-- **The contract takes the terms of a body that is answered to be valid exactly if** what the
backend does not check holds of them. -/
theorem createPreflight_iff (hz : Documented parse)
    (hvalid : (simulateCreate parse body).answersValid = true) (hconfig : s.config = some config)
    (hunpaused : config.paused = false)
    (hfee : (simulateCreate parse body).platformFeeBps = .int config.defaultPlatformFeeBps.val)
    (hauth : env.auth params.seller = true) (hsame : SameParameters body params) :
    (∃ o, createAuction env s params = .ok o) ↔ TermsFit config.maxRoyaltyBps.val body := by
  obtain ⟨royalty, startTime, endTime, hroyalty, hstart, hend, hlt, hfits, hreported⟩ :=
    simulateCreate_valid hz hvalid
  have hdefault : config.defaultPlatformFeeBps.val = 250 := by
    have hequal := JsNumber.finite.inj (Json.number.inj (hfee.symm.trans hreported))
    exact_mod_cast hequal
  have hfees : params.royaltyBps.val + config.defaultPlatformFeeBps.val ≤ 10000 := by
    rw [hsame.royaltyBps, numberIn_of_int hroyalty, hdefault]
    exact hfits
  have htimes : params.startTime < params.endTime := by
    rw [Ranged.lt_iff, hsame.startTime, hsame.endTime, numberIn_of_int hstart, numberIn_of_int hend]
    exact hlt
  rw [← hsame.accepts_iff hauth hunpaused hfees htimes]
  constructor
  · rintro ⟨o, ho⟩
    obtain ⟨config', hconfig', ok, -⟩ := createAuction_eq_ok_iff.mp ho
    rw [Option.some.inj (hconfig.symm.trans hconfig')]
    exact ok
  · exact fun ok => ⟨_, createAuction_eq_ok_iff.mpr ⟨config, hconfig, ok, rfl⟩⟩

/-! ### A body without an increment -/

namespace Stage

/-- The key of some account. -/
def key (first : Char) : String := String.ofList (first :: List.replicate 55 'A')

/-- A body of a new English auction, with or without an increment. -/
def listing (minIncrement : List (String × Json)) : Json :=
  .object ([("seller", .string (key 'G')), ("original_creator", .string (key 'G')),
    ("format", .string "english"), ("item_type", .string "digital"),
    ("payment_token", .string (key 'C')), ("reserve_price", .string "10"),
    ("royalty_bps", .int 500), ("start_time", .int 1), ("end_time", .int 30),
    ("metadata_uri", .string "ipfs://painting")] ++ minIncrement)

/-- A body with an increment. -/
def listingWithIncrement : Json := listing [("min_increment", .string "10")]

/-- The call with the same parameters. -/
def listingParams (minIncrement : I128) : CreateAuctionParams ℕ :=
  { Stage.params .english painting with
    startTime := 1
    metadataUri := "ipfs://painting"
    minIncrement := minIncrement
    startPrice := 0
    priceDecayPerSecond := 0
    commitDeadline := 0
    revealDeadline := 0 }

theorem sameParameters_listing : SameParameters (listing []) (listingParams 0) ∧
    SameParameters listingWithIncrement (listingParams (.of 10)) := by
  constructor <;> constructor <;> rfl

/-- The platform, which has just been set up. -/
def platform : Storage ℕ :=
  { Storage.empty with
    auctionCount := some 0
    config := some ⟨1, .of 250, .of 1000, false⟩
    platformWallet := some 1 }

/-- The seller calls. -/
def selling : Env ℕ := host.env start.tokens (signed 2 0)

end Stage

/-- The theorem at an auction with an increment, which the contract creates. -/
theorem createPreflight_iff_listing :
    (simulateCreate Schema.reference Stage.listingWithIncrement).answersValid = true ∧
      TermsFit 1000 Stage.listingWithIncrement ∧
        ∃ o, createAuction Stage.selling Stage.platform (Stage.listingParams (.of 10)) = .ok o := by
  have hvalid : (simulateCreate Schema.reference Stage.listingWithIncrement).answersValid =
      true := by decide +kernel
  have hterms : TermsFit 1000 Stage.listingWithIncrement := by
    refine ⟨by decide, fun _ => by decide, fun hf => ?_, fun hf => ?_⟩
    · exact absurd (Json.string.inj hf) (by decide)
    · exact absurd (Json.string.inj hf) (by decide)
  obtain ⟨-, -, -, -, -, -, -, -, hfee⟩ :=
    simulateCreate_valid Schema.documented_reference hvalid
  exact ⟨hvalid, hterms, (createPreflight_iff Schema.documented_reference hvalid rfl rfl hfee
    (by decide) Stage.sameParameters_listing.2).mpr hterms⟩

/-- **The contract may refuse what is answered to be valid.** -/
theorem exists_refused_terms : ¬∀ (body : Json) (params : CreateAuctionParams ℕ) (env : Env ℕ)
    (s : Storage ℕ) (config : PlatformConfig ℕ),
      (simulateCreate Schema.reference body).answersValid = true → s.config = some config →
        config.paused = false →
          (simulateCreate Schema.reference body).platformFeeBps =
            .int config.defaultPlatformFeeBps.val →
          env.auth params.seller = true → SameParameters body params →
            ∃ o, createAuction env s params = .ok o := by
  intro hclaim
  have hvalid : (simulateCreate Schema.reference (Stage.listing [])).answersValid = true := by
    decide +kernel
  obtain ⟨-, -, -, -, -, -, -, -, hfee⟩ :=
    simulateCreate_valid Schema.documented_reference hvalid
  obtain ⟨o, ho⟩ := hclaim _ _ Stage.selling Stage.platform _ hvalid rfl rfl hfee (by decide)
    Stage.sameParameters_listing.1
  obtain ⟨config, -, ok, -⟩ := createAuction_eq_ok_iff.mp ho
  -- nothing is not positive
  exact absurd (ok.english rfl) (by decide)

end UrithiBidz
