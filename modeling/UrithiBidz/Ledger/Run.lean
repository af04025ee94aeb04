import UrithiBidz.Book.Life
import UrithiBidz.Ledger.Host

/-!
# Runs of the contract

A world is the storage of the contract, the state of the token contracts and the time of
the last transaction. It moves on by a call of the contract, made by anybody, in a
transaction that is not older than the last and that the contract itself has not
authorized; before the call the tokens may have moved by themselves. The step exists when
the call returns and the host carries out the token calls that it made. A call that panics,
or one of whose token calls fails, leaves the world as it was and is not recorded.

A run starts on an empty storage. Its labels are the calls that returned, each with what it
saw and did, so a run remembers its whole past. Seen from one auction, a run of the contract
is a life of that auction (`UrithiBidz.Run.life`).
-/

namespace UrithiBidz

variable {Address : Type} [DecidableEq Address]

/-- The state of the world. -/
structure World (H : Host Address) where
  storage : Storage Address
  tokens : H.Tokens
  now : U64

/-- **One call of the contract**, and what happened to the tokens before it. -/
inductive Step (H : Host Address) : World H → Invocation Address → World H → Prop
  | call {s : Storage Address} {t₀ t t' : H.Tokens} {now : U64} {tx : Tx Address}
      {c : Call Address} {o : Outcome Address} (outside : H.world t₀ t)
      (time : now ≤ tx.timestamp) (self : tx.auth H.contract = false) (room : c.Room s)
      (returns : invoke (H.env t tx) s c = .ok o)
      (carried : H.execAll tx.auth t o.calls = some t') :
      Step H ⟨s, t₀, now⟩ ⟨H.env t tx, s, c, o⟩ ⟨o.storage, t', tx.timestamp⟩

/-- **The runs of the contract** on a host. -/
abbrev Run (H : Host Address) : List (Invocation Address) → World H → Prop :=
  History (fun w => w.storage = .empty) (Step H)

variable {H : Host Address}

theorem Step.returns {w w' : World H} {i : Invocation Address} (h : Step H w i w') :
    i.before = w.storage ∧ w'.storage = i.outcome.storage ∧
      invoke i.env i.before i.call = .ok i.outcome ∧ w'.now = i.env.timestamp ∧
      i.call.Room i.before := by
  cases h with
  | call _ _ _ room returns _ => exact ⟨rfl, rfl, returns, rfl, room⟩

namespace Run

variable {tr : List (Invocation Address)} {w : World H}

/-- **Ids are fresh along a run.** -/
theorem fresh (h : Run H tr w) : w.storage.Fresh := by
  refine History.invariant (P := fun _ w => w.storage.Fresh) ?_ ?_ h
  · intro w hw
    rw [hw]
    refine ⟨?_, fun _ _ => rfl⟩
    rintro A a ⟨⟩
  · rintro tr w i w' - ih hs
    obtain ⟨hbefore, hafter, hret, -, hroom⟩ := hs.returns
    rw [hafter]
    rw [hbefore] at hret hroom
    refine ih.invoke hret ?_
    rintro params hc
    rw [hc] at hroom
    exact hroom

/-- **A run, seen from one auction, is a life of that auction.** The steps of the life are
the calls of the run that are about the auction; the others do not touch its book. -/
theorem life (h : Run H tr w) (id : U64) :
    ∃ now ≤ w.now, Life H.contract id (tr.filter (·.About id)) (w.storage.book id, now) := by
  induction h with
  | @start w hw => exact ⟨w.now, le_refl w.now.val, .start (by rw [hw]; rfl)⟩
  | @snoc tr w w' i hrun hs ih =>
    obtain ⟨now, hnow, hlife⟩ := ih
    have hfresh := fresh hrun
    cases hs with
    | @call s t₀ t t' now₀ tx c o houtside htime hself hroom hret hcarried =>
      by_cases hid : c.target s = some id
      · obtain ⟨hstep, -⟩ := invoke_book hfresh hret hid
        have habout : (⟨H.env t tx, s, c, o⟩ : Invocation Address).About id := hid
        rw [List.filter_append, List.filter_cons_of_pos (by simpa using habout), List.filter_nil]
        exact ⟨tx.timestamp, le_refl tx.timestamp.val,
          .snoc hlife (.mk hstep rfl hself (hnow.trans htime) hroom rfl rfl)⟩
      · -- a call about another auction, or about none
        have hsame : o.storage.book id = s.book id := by
          cases htarget : c.target s with
          | none => exact (invoke_no_target hret htarget).1 id
          | some id' =>
            refine (invoke_book hfresh hret htarget).2 id fun hcon => hid ?_
            rw [htarget, hcon]
        have habout : ¬(⟨H.env t tx, s, c, o⟩ : Invocation Address).About id := hid
        rw [List.filter_append, List.filter_cons_of_neg (by simpa using habout), List.filter_nil,
          List.append_nil]
        refine ⟨now, hnow.trans htime, ?_⟩
        rw [hsame]
        exact hlife

/-- **A call steps the book it is about, in a life of that book**, when it comes up in a
run. -/
theorem lives_of_mem (h : Run H tr w) {i : Invocation Address} (hi : i ∈ tr) {id : U64}
    (hid : i.About id) : ∃ past p p', past ++ [i] <+: tr.filter (·.About id) ∧
      Life H.contract id past p ∧ Lives H.contract id p i p' ∧
      i.before.book id = p.1 ∧ i.outcome.storage.book id = p'.1 := by
  obtain ⟨now, -, hlife⟩ := h.life id
  obtain ⟨past, p, p', hpast, hs, hpre⟩ :=
    hlife.of_mem (List.mem_filter.mpr ⟨hi, by simpa using hid⟩)
  refine ⟨past, p, p', hpre, hpast, hs, ?_⟩
  cases hs with
  | mk _ _ _ _ _ hbefore hafter => exact ⟨hbefore, hafter⟩

/-- **A call touches no book but the one it is about.** -/
theorem frame (h : Run H tr w) {i : Invocation Address} (hi : i ∈ tr) {id : U64}
    (hid : ¬i.About id) : i.outcome.storage.book id = i.before.book id := by
  obtain ⟨past, t, t', hpast, hs, -⟩ := h.of_mem hi
  have hfresh := fresh hpast
  obtain ⟨hbefore, -, hret, -, -⟩ := hs.returns
  rw [← hbefore] at hfresh
  cases htarget : i.call.target i.before with
  | none => exact (invoke_no_target hret htarget).1 id
  | some id' =>
    refine (invoke_book hfresh hret htarget).2 id fun hcon => hid ?_
    rw [Invocation.About, htarget, hcon]

/-- A call of a run steps the book it is about. -/
theorem bookStep_of_mem (h : Run H tr w) {i : Invocation Address} (hi : i ∈ tr) {id : U64}
    (hid : i.About id) :
    BookStep i.env id i.call (i.before.book id) (i.outcome.storage.book id) i.outcome.calls := by
  obtain ⟨past, p, p', -, -, hs, hbefore, hafter⟩ := h.lives_of_mem hi hid
  cases hs with
  | mk hstep => rw [hbefore, hafter]; exact hstep

/-- A relation between the calls of a run that are about an auction, from its lives. -/
theorem pairwise_about (h : Run H tr w) (id : U64)
    {R : Invocation Address → Invocation Address → Prop}
    (hR : ∀ past p j p', Life H.contract id past p → Lives H.contract id p j p' →
      ∀ i ∈ past, R i j)
    (habout : ∀ i j, (i.About id → j.About id → R i j) → R i j) : tr.Pairwise R := by
  obtain ⟨now, -, hlife⟩ := h.life id
  have hfilter := List.pairwise_filter.mp (hlife.pairwise hR)
  refine hfilter.imp fun hij => habout _ _ fun hi hj => hij ?_ ?_
  · simpa using hi
  · simpa using hj

/-- The calls of a run are in the order of time. -/
theorem in_order (h : Run H tr w) :
    tr.Pairwise (fun i j => i.env.timestamp ≤ j.env.timestamp) ∧
      ∀ i ∈ tr, i.env.timestamp ≤ w.now := by
  induction h with
  | start => exact ⟨List.Pairwise.nil, fun i hi => absurd hi List.not_mem_nil⟩
  | @snoc tr w w' j h hs ih =>
    obtain ⟨hpairs, hpast⟩ := ih
    have hnow : w.now ≤ w'.now ∧ w'.now = j.env.timestamp := by
      cases hs with
      | call _ htime => exact ⟨htime, rfl⟩
    refine ⟨List.pairwise_append.mpr ⟨hpairs, List.pairwise_singleton _ _, ?_⟩, ?_⟩
    · intro i hi k hk
      rw [List.mem_singleton.mp hk, ← hnow.2]
      exact (hpast i hi).trans hnow.1
    · intro i hi
      rcases List.mem_append.mp hi with hi | hi
      · exact (hpast i hi).trans hnow.1
      · rw [List.mem_singleton.mp hi, hnow.2]

section Records

variable {id : U64} {R : Auction Address → Auction Address → Prop} (hrefl : ∀ a, R a a)
  (hR : ∀ {env c b b' calls}, BookStep env id c b b' calls → ∀ a, b.auction = some a →
    ∃ a', b'.auction = some a' ∧ R a a')
include hrefl hR

/-- **What every step does to a record, every call of a run does to it.** -/
theorem record_step (h : Run H tr w) : ∀ i ∈ tr, ∀ a, i.before.auctions id = some a →
    ∃ a', i.outcome.storage.auctions id = some a' ∧ R a a' := by
  intro i hi a ha
  by_cases hid : i.About id
  · exact hR (h.bookStep_of_mem hi hid) a ha
  · exact ⟨a, (congrArg Book.auction (h.frame hi hid)).trans ha, hrefl a⟩

/-- What every step does to a record has happened to it since any point of a run. -/
theorem record_since (htrans : ∀ a a₁ a₂, R a a₁ → R a₁ a₂ → R a a₂) (h : Run H tr w) :
    ∀ i ∈ tr, ∀ a, i.outcome.storage.auctions id = some a →
      ∃ a', w.storage.auctions id = some a' ∧ R a a' := by
  induction h with
  | start => exact fun i hi => absurd hi List.not_mem_nil
  | @snoc tr w w' j h hs ih =>
    intro i hi a ha
    obtain ⟨hbefore, hafter, -, -, -⟩ := hs.returns
    rcases List.mem_append.mp hi with hi | hi
    · obtain ⟨a₁, ha₁, hpast⟩ := ih i hi a ha
      rw [← hbefore] at ha₁
      obtain ⟨a', ha', hlast⟩ := record_step hrefl hR (.snoc h hs) j (by simp) a₁ ha₁
      exact ⟨a', hafter ▸ ha', htrans a a₁ a' hpast hlast⟩
    · obtain rfl := List.mem_singleton.mp hi
      exact ⟨a, hafter ▸ ha, hrefl a⟩

/-- What every step does to a record has happened to it after any continuation of a run. -/
theorem record_later (htrans : ∀ a a₁ a₂, R a a₁ → R a₁ a₂ → R a a₂) (h : Run H tr w)
    {later : List (Invocation Address)} {w' : World H}
    (hlater : History (fun t => t = w) (Step H) later w') :
    ∀ a, w.storage.auctions id = some a → ∃ a', w'.storage.auctions id = some a' ∧ R a a' := by
  induction hlater with
  | start heq =>
    rw [heq]
    exact fun a ha => ⟨a, ha, hrefl a⟩
  | @snoc later w₁ w' j hpast hs ih =>
    intro a ha
    obtain ⟨a₁, ha₁, hfirst⟩ := ih a ha
    obtain ⟨hbefore, hafter, -, -, -⟩ := hs.returns
    rw [← hbefore] at ha₁
    obtain ⟨a', ha', hlast⟩ :=
      record_step hrefl hR ((h.append hpast).snoc hs) j (by simp) a₁ ha₁
    exact ⟨a', hafter ▸ ha', htrans a a₁ a' hfirst hlast⟩

end Records

end Run

end UrithiBidz
