import UrithiBidz.Guarantees.Bidding
import UrithiBidz.Guarantees.Lifecycle
import UrithiBidz.Guarantees.Mirror
import UrithiBidz.Server.Routes

/-!
# The pre-flight of a bid

Before a bid is signed, the backend tells the bidder whether the contract will take the amount. It
decides by the row of the auction, the contract by its record, and if the one mirrors the other
(`UrithiBidz.AuctionRecord.RowOf`), they ought to decide alike: the backend answers that the bid is
valid exactly if the contract's check of the status and its two checks of the amount pass
(`UrithiBidz.Auction.AdmitsAmount`).

They do not, in four regimes. The contract's first auction is auction 0, and the backend knows no
such id. The backend takes bids on an auction that has been created and not activated. It does not
ask a first bid for the increment. And where the least acceptable bid saturates, the backend,
whose integers do not, refuses the one bid that the contract still takes.
`UrithiBidz.PreflightAgrees` excludes exactly these, and in every run it is exactly then that the
two agree (`UrithiBidz.Run.bidPreflight_iff`). A bid on auction 0 separates them
(`UrithiBidz.exists_misjudged`).
-/

namespace UrithiBidz

open Schema (Documented)

variable {Address : Type}

/-! ### What the contract takes -/

/-- **The contract takes the amount**: those of the checks of `place_bid` (`AcceptsBid`) that are
about the status and the amount. The others are about the bidder and the time. -/
structure Auction.AdmitsAmount (a : Auction Address) (amount : I128) : Prop where
  status : a.status = .active
  reserve : a.reservePrice ≤ amount
  increment : a.highestBid.saturatingAdd a.minIncrement ≤ amount

/-! ### The row of an auction -/

/-- **The row mirrors the record**, in what a bid depends on. -/
structure AuctionRecord.RowOf (row : AuctionRecord) (a : Auction Address) : Prop where
  status : row.status ∈ statusNames a.status
  amounts : row.Amounts a.highestBid.val a.reservePrice.val a.minIncrement.val

/-- The backend takes bids on auctions that are created or active. -/
theorem AuctionRecord.RowOf.open_iff {row : AuctionRecord} {a : Auction Address}
    (h : row.RowOf a) : (row.status = "active" ∨ row.status = "created") ↔
      a.status = .active ∨ a.status = .created := by
  have hname := h.status
  rcases hs : a.status with _ | _ | _ | _ | _ <;> rw [hs] at hname
  case created => exact iff_of_true (Or.inr (List.mem_singleton.mp hname)) (Or.inr rfl)
  case active => exact iff_of_true (Or.inl (List.mem_singleton.mp hname)) (Or.inl rfl)
  case ended =>
    refine iff_of_false ?_ nofun
    rcases List.mem_pair.mp hname with hclosed | hended
    · rw [hclosed]
      decide
    · rw [hended]
      decide
  all_goals
    refine iff_of_false ?_ nofun
    rw [List.mem_singleton.mp hname]
    decide

/-! ### When they agree -/

/-- **The two agree on an amount.** -/
structure PreflightAgrees (id : U64) (a : Auction Address) (amount : I128) : Prop where
  /-- An active auction zero: the amount is too low. -/
  unknown : id = 0 → a.status = .active → a.reservePrice ≤ amount →
    amount < a.highestBid.saturatingAdd a.minIncrement
  /-- An auction that has not been activated: the amount is below the reserve. -/
  created : id ≠ 0 → a.status = .created → amount < a.reservePrice
  /-- A first bid that meets the reserve: it meets the increment. -/
  first : id ≠ 0 → a.status = .active → a.highestBid = 0 → a.reservePrice ≤ amount →
    a.minIncrement ≤ amount
  /-- The next bid would be out of range: the amount is not the last one in range. -/
  saturated : id ≠ 0 → a.status = .active → a.highestBid ≠ 0 →
    I128.max.val < a.highestBid.val + a.minIncrement.val → amount ≠ I128.max

/-- The record of an English auction, as far as a bid depends on it. -/
structure Auction.Biddable (a : Auction Address) : Prop where
  increment : 0 < a.minIncrement.val
  unbid : a.status = .created → a.highestBid = 0
  reserve : a.highestBid ≠ 0 → a.reservePrice ≤ a.highestBid

/-- The backend takes the amount, as its row is that of the record. -/
def Auction.PassesPreflight (id : U64) (a : Auction Address) (amount : I128) : Prop :=
  0 < id.val ∧ (a.status = .active ∨ a.status = .created) ∧
    minRequired a.highestBid.val a.reservePrice.val a.minIncrement.val ≤ amount.val

variable {a : Auction Address} {id : U64} {amount : I128}

/-- The contract's first auction. -/
theorem preflight_unknown :
    (a.PassesPreflight 0 amount ↔ a.AdmitsAmount amount) ↔ PreflightAgrees 0 a amount := by
  have hno : ¬a.PassesPreflight 0 amount := fun h => absurd h.1 (lt_irrefl 0)
  constructor
  · intro hagree
    refine ⟨fun _ hactive hreserve => ?_, fun hid => absurd rfl hid, fun hid => absurd rfl hid,
      fun hid => absurd rfl hid⟩
    by_contra hlow
    exact hno (hagree.mpr ⟨hactive, hreserve, Ranged.not_lt_iff.mp hlow⟩)
  · intro h
    refine iff_of_false hno fun hadmits => ?_
    exact absurd hadmits.increment
      (not_le_of_gt (h.unknown rfl hadmits.status hadmits.reserve))

theorem val_pos_of_ne_zero (hid : id ≠ 0) : 0 < id.val :=
  lt_of_le_of_ne id.lo_le fun hzero => hid (Ranged.ext hzero.symm)

/-- An auction that has not been activated. -/
theorem Auction.Biddable.preflight_created (h : a.Biddable) (hid : id ≠ 0)
    (hs : a.status = .created) :
    (a.PassesPreflight id amount ↔ a.AdmitsAmount amount) ↔ PreflightAgrees id a amount := by
  have hclosed : a.status ≠ .active := by
    rw [hs]
    nofun
  have hno : ¬a.AdmitsAmount amount := fun hadmits => hclosed hadmits.status
  have hpasses : a.PassesPreflight id amount ↔ a.reservePrice ≤ amount := by
    rw [PassesPreflight, minRequired, if_pos (by rw [h.unbid hs]; rfl)]
    exact ⟨fun hp => hp.2.2, fun hreserve => ⟨val_pos_of_ne_zero hid, Or.inr hs, hreserve⟩⟩
  rw [iff_false_right hno, hpasses, ← Ranged.not_lt_iff, not_not]
  exact ⟨fun hlow => ⟨fun hzero => absurd hzero hid, fun _ _ => hlow,
      fun _ hactive => absurd hactive hclosed, fun _ hactive => absurd hactive hclosed⟩,
    fun hagrees => hagrees.created hid hs⟩

/-- An auction without a bid: the contract asks for the increment, too. -/
theorem preflight_first (hid : id ≠ 0) (hs : a.status = .active) (hbid : a.highestBid = 0) :
    (a.PassesPreflight id amount ↔ a.AdmitsAmount amount) ↔ PreflightAgrees id a amount := by
  have hpasses : a.PassesPreflight id amount ↔ a.reservePrice ≤ amount := by
    rw [Auction.PassesPreflight, minRequired, if_pos (by rw [hbid]; rfl)]
    exact ⟨fun hp => hp.2.2, fun hreserve => ⟨val_pos_of_ne_zero hid, Or.inl hs, hreserve⟩⟩
  have hleast : a.highestBid.saturatingAdd a.minIncrement = a.minIncrement := by
    have hlow := a.minIncrement.lo_le
    have hhigh := a.minIncrement.le_hi
    refine Ranged.ext ?_
    rw [Ranged.val_saturatingAdd, hbid, I128.val_zero]
    omega
  have hadmits : a.AdmitsAmount amount ↔ a.reservePrice ≤ amount ∧ a.minIncrement ≤ amount :=
    ⟨fun ha => ⟨ha.reserve, hleast ▸ ha.increment⟩,
      fun ha => ⟨hs, ha.1, hleast.symm ▸ ha.2⟩⟩
  have hopen : a.status ≠ .created := by
    rw [hs]
    nofun
  rw [hpasses, hadmits, iff_self_and]
  exact ⟨fun hfirst => ⟨fun hzero => absurd hzero hid, fun _ hcreated => absurd hcreated hopen,
      fun _ _ _ => hfirst, fun _ _ hne => absurd hbid hne⟩,
    fun hagrees => hagrees.first hid hs hbid⟩

/-- Once there is a bid, what outbids it meets the reserve. -/
theorem Auction.Biddable.admitsAmount_iff (h : a.Biddable) (hs : a.status = .active)
    (hbid : a.highestBid ≠ 0) : a.AdmitsAmount amount ↔
      min (a.highestBid.val + a.minIncrement.val) I128.max.val ≤ amount.val := by
  have hreserve := Ranged.le_iff.mp (h.reserve hbid)
  have hincrement := h.increment
  have hlow := a.highestBid.lo_le
  have hmax := a.highestBid.le_hi
  have hleast : a.highestBid.saturatingAdd a.minIncrement ≤ amount ↔
      min (a.highestBid.val + a.minIncrement.val) I128.max.val ≤ amount.val := by
    rw [Ranged.le_iff, Ranged.val_saturatingAdd, I128.val_max]
    omega
  refine ⟨fun ha => hleast.mp ha.increment, fun ha => ⟨hs, ?_, hleast.mpr ha⟩⟩
  rw [I128.val_max] at ha
  rw [Ranged.le_iff]
  omega

/-- An auction with a bid: the contract's least bid may saturate. -/
theorem Auction.Biddable.preflight_next (h : a.Biddable) (hid : id ≠ 0) (hs : a.status = .active)
    (hbid : a.highestBid ≠ 0) :
    (a.PassesPreflight id amount ↔ a.AdmitsAmount amount) ↔ PreflightAgrees id a amount := by
  have hpasses : a.PassesPreflight id amount ↔
      a.highestBid.val + a.minIncrement.val ≤ amount.val := by
    rw [Auction.PassesPreflight, minRequired, if_neg fun hzero : a.highestBid.val = 0 =>
      hbid (Ranged.ext hzero)]
    exact ⟨fun hp => hp.2.2, fun hnext => ⟨val_pos_of_ne_zero hid, Or.inl hs, hnext⟩⟩
  have hopen : a.status ≠ .created := by
    rw [hs]
    nofun
  have hhigh := amount.le_hi
  rw [hpasses, h.admitsAmount_iff hs hbid, I128.val_max]
  constructor
  · intro hagree
    refine ⟨fun hzero => absurd hzero hid, fun _ hcreated => absurd hcreated hopen,
      fun _ _ hzero => absurd hzero hbid, fun _ _ _ hrange => I128.ne_max_iff.mpr ?_⟩
    rw [I128.val_max] at hrange ⊢
    omega
  · intro hagrees
    have hsaturated := hagrees.saturated hid hs hbid
    rw [I128.ne_max_iff, I128.val_max] at hsaturated
    omega

theorem preflight_closed (hid : id ≠ 0) (hopen : a.status ≠ .created)
    (hactive : a.status ≠ .active) :
    (a.PassesPreflight id amount ↔ a.AdmitsAmount amount) ↔ PreflightAgrees id a amount := by
  refine iff_of_true (iff_of_false (fun hp => ?_) fun ha => hactive ha.status) ?_
  · exact hp.2.1.elim hactive hopen
  · exact ⟨fun hzero => absurd hzero hid, fun _ hs => absurd hs hopen,
      fun _ hs => absurd hs hactive, fun _ hs => absurd hs hactive⟩

/-- **Between the least bid of the one and that of the other there is nothing else.** -/
theorem Auction.Biddable.preflight_iff (h : a.Biddable) :
    (a.PassesPreflight id amount ↔ a.AdmitsAmount amount) ↔ PreflightAgrees id a amount := by
  rcases eq_or_ne id 0 with rfl | hid
  · exact preflight_unknown
  rcases hs : a.status with _ | _ | _ | _ | _
  case created => exact h.preflight_created hid hs
  case active =>
    by_cases hbid : a.highestBid = 0
    · exact preflight_first hid hs hbid
    · exact h.preflight_next hid hs hbid
  all_goals
    refine preflight_closed hid ?_ ?_ <;>
    · rw [hs]
      nofun

/-! ### Along a run -/

variable [DecidableEq Address] {H : Host Address} {tr : List (Invocation Address)} {w : World H}

/-- **An English auction is biddable**, in every run: its increment is positive, there is no bid
before it is activated, and the highest bid meets the reserve. -/
theorem Run.biddable (h : Run H tr w) (ha : w.storage.auctions id = some a)
    (hf : a.format = .english) : a.Biddable := by
  obtain ⟨now, -, hlife⟩ := h.life id
  have htracks := Run.tracks h a ha hf
  refine ⟨(hlife.validTerms a ha).english hf, fun hs => ?_, fun hbid => ?_⟩
  · have hnone := hlife.unbidUntilOpen a ha hs
    rw [htracks.bidder, Option.map_eq_none_iff] at hnone
    rw [htracks.price, hnone]
    rfl
  · rcases hlast : (bidsOf id tr).getLast? with _ | bid
    · rw [htracks.price, hlast] at hbid
      exact absurd rfl hbid
    · rw [htracks.price, hlast]
      exact htracks.reserve bid (List.mem_of_getLast? hlast)

variable {parse : Schema → Json → Schema.Outcome}
  {getAuction : ℤ → Except String (Option AuctionRecord)} {row : AuctionRecord} {path : String}
  {body : Json}

/-- **The pre-flight of a bid and the contract agree exactly if** the auction is not auction zero
with an acceptable amount, not one that has not been activated with an amount that meets the
reserve, not one without a bid with an amount below the increment, and the amount is not the last
in range where the next bid is out of range. -/
theorem Run.bidPreflight_iff (h : Run H tr w) (ha : w.storage.auctions id = some a)
    (hf : a.format = .english) (hz : Documented parse)
    (hquery : getAuction (jsNumber id.val) = .ok (some row)) (hrow : row.RowOf a)
    (hdigits : isDigits path = true) (hpath : (digitsValue path : ℤ) = id.val)
    (hpos : 0 < amount.val) (hbody : BidBody body amount.val) :
    ((simulateBid parse getAuction path body).answersValid = true ↔ a.AdmitsAmount amount) ↔
      PreflightAgrees id a amount := by
  have hvalid : (simulateBid parse getAuction path body).answersValid = true ↔
      a.PassesPreflight id amount := by
    rw [simulateBid_valid_iff hz hdigits (numberOfDigits_of_id hpath) hquery hrow.amounts hbody
      hpos, jsNumber_pos_iff, hrow.open_iff, Auction.PassesPreflight]
  rw [hvalid]
  exact (Run.biddable h ha hf).preflight_iff

/-- Two English auctions are opened. -/
def Stage.twoEnglish : List (Tx ℕ × Call ℕ) :=
  Stage.opening .english Stage.painting ++
    [(Stage.signed 2 0, .createAuction (Stage.params .english Stage.painting)),
      (Stage.signed 2 1, .activateAuction 0), (Stage.signed 2 1, .activateAuction 1)]

/-- The row of either of them. -/
def Stage.openRow (id : ℤ) : AuctionRecord where
  id := id
  seller := .string "G"
  originalCreator := .string "G"
  format := "english"
  status := "active"
  itemType := .string "digital"
  paymentToken := .string "C"
  reservePrice := "10"
  royaltyBps := .number 500
  platformFeeBps := .number 250
  startTime := .string "0"
  endTime := .string "30"
  metadataUri := .string ""
  minIncrement := "1"
  startPrice := "500"
  priceDecayPerSecond := "1"
  highestBid := "0"
  currentDutchPrice := "500"
  attested := false

/-- A bid of a hundred. -/
def Stage.bidOfHundred : Json :=
  .object [("bidder", .string (String.ofList ('G' :: List.replicate 55 'A'))),
    ("bid_amount", .string "100"), ("format", .string "english")]

theorem Stage.bidBody_bidOfHundred : BidBody bidOfHundred 100 where
  object := ⟨_, rfl⟩
  bidder := ⟨_, by decide, rfl⟩
  amount := ⟨_, by decide, by decide, rfl⟩
  format := ⟨_, by decide, rfl⟩

/-- An auction on the stage is open and without a bid. -/
def Stage.Fresh (a : Auction ℕ) : Prop :=
  a.format = .english ∧ a.status = .active ∧ a.highestBid = 0 ∧ a.reservePrice = .of 10 ∧
    a.minIncrement = 1

instance (a : Auction ℕ) : Decidable (Stage.Fresh a) :=
  inferInstanceAs (Decidable (_ ∧ _ ∧ _ ∧ _ ∧ _))

theorem Stage.exists_twoEnglish : ∃ (tr : List (Invocation ℕ)) (w : World host), Run host tr w ∧
    ∀ id ∈ [(0 : U64), 1], ∃ a, w.storage.auctions id = some a ∧ Fresh a := by
  have hreplay : (replay start twoEnglish).map (fun r => [(0 : U64), 1].all fun id =>
      (r.2.storage.auctions id).any fun a => decide (Fresh a)) = some true := by decide +kernel
  obtain ⟨tr, w, hrun, hv⟩ := exists_run_of_replay world_refl rfl hreplay
  refine ⟨tr, w, hrun, fun id hid => ?_⟩
  obtain ⟨a, ha, hfresh⟩ := (Option.any_eq_true _ _).mp (List.all_eq_true.mp hv id hid)
  exact ⟨a, ha, of_decide_eq_true hfresh⟩

theorem Stage.Fresh.rowOf {a : Auction ℕ} (h : Fresh a) (n : ℤ) : (openRow n).RowOf a := by
  obtain ⟨-, hs, hbid, hreserve, hinc⟩ := h
  have hamounts : (openRow n).Amounts 0 10 1 :=
    ⟨(by decide : bigInt "0".toList = some 0), (by decide : bigInt "10".toList = some 10),
      (by decide : bigInt "1".toList = some 1)⟩
  refine ⟨?_, ?_⟩
  · rw [hs]
    exact List.mem_singleton_self _
  · rw [hbid, hreserve, hinc]
    exact hamounts

theorem Stage.Fresh.admitsAmount {a : Auction ℕ} (h : Fresh a) : a.AdmitsAmount (.of 100) := by
  obtain ⟨-, hs, hbid, hreserve, hinc⟩ := h
  refine ⟨hs, ?_, ?_⟩
  · rw [hreserve]
    decide
  · rw [hbid, hinc]
    decide

/-- The theorem at auction 1, where the two agree that a hundred is enough. -/
theorem bidPreflight_iff_second : ∃ (tr : List (Invocation ℕ)) (w : World Stage.host)
    (a : Auction ℕ), Run Stage.host tr w ∧ w.storage.auctions 1 = some a ∧
      a.AdmitsAmount (.of 100) ∧ PreflightAgrees 1 a (.of 100) ∧
        (simulateBid Schema.reference (fun id => .ok (some (Stage.openRow id))) "1"
          Stage.bidOfHundred).answersValid = true := by
  obtain ⟨tr, w, hrun, hopen⟩ := Stage.exists_twoEnglish
  obtain ⟨a, ha, hfresh⟩ := hopen 1 (by decide)
  obtain ⟨hf, hs, hbid, -, hinc⟩ := id hfresh
  have hagrees : PreflightAgrees 1 a (.of 100) := by
    refine ⟨fun hid => absurd hid (by decide), fun _ hcreated => ?_, fun _ _ _ _ => ?_,
      fun _ _ hne => absurd hbid hne⟩
    · rw [hs] at hcreated
      cases hcreated
    · rw [hinc]
      decide
  have hiff : ((simulateBid Schema.reference (fun id => .ok (some (Stage.openRow id))) "1"
      Stage.bidOfHundred).answersValid = true ↔ a.AdmitsAmount (.of 100)) ↔
        PreflightAgrees 1 a (.of 100) :=
    Run.bidPreflight_iff hrun ha hf Schema.documented_reference rfl (hfresh.rowOf _) (by decide)
      (by decide) (by decide) Stage.bidBody_bidOfHundred
  exact ⟨tr, w, a, hrun, ha, hfresh.admitsAmount, hagrees,
    (hiff.mpr hagrees).mpr hfresh.admitsAmount⟩

/-- **The two do not agree.** -/
theorem exists_misjudged : ¬∀ (tr : List (Invocation ℕ)) (w : World Stage.host),
    Run Stage.host tr w → ∀ id a, w.storage.auctions id = some a → a.format = .english →
      ∀ (getAuction : ℤ → Except String (Option AuctionRecord)) (row : AuctionRecord),
        getAuction (jsNumber id.val) = .ok (some row) → row.RowOf a →
          ∀ (amount : I128) (path : String) (body : Json), 0 < amount.val →
            isDigits path = true → (digitsValue path : ℤ) = id.val → BidBody body amount.val →
              ((simulateBid Schema.reference getAuction path body).answersValid = true ↔
                a.AdmitsAmount amount) := by
  intro hclaim
  obtain ⟨tr, w, hrun, hopen⟩ := Stage.exists_twoEnglish
  obtain ⟨a, ha, hfresh⟩ := hopen 0 (by decide)
  have hagree := hclaim tr w hrun 0 a ha hfresh.1 (fun id => .ok (some (Stage.openRow id))) _ rfl
    (hfresh.rowOf _) (.of 100) "0" Stage.bidOfHundred (by decide) (by decide) (by decide)
    Stage.bidBody_bidOfHundred
  have hvalid := hagree.mpr hfresh.admitsAmount
  have hpath : numberOfDigits "0" = .finite (jsNumber (0 : U64).val) :=
    numberOfDigits_of_id (by decide)
  rw [simulateBid_valid_iff Schema.documented_reference (by decide) hpath rfl
    (hfresh.rowOf _).amounts Stage.bidBody_bidOfHundred (by decide)] at hvalid
  exact absurd hvalid.1 (by decide)

end UrithiBidz
