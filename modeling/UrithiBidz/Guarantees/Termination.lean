import UrithiBidz.Guarantees.Cursor
import UrithiBidz.Library.Paging

/-!
# The end of a cycle

A cycle of the indexer asks for batches of events until one is not full. It remembers the last
ledger that it has seen, and asks for the next batch from that ledger on, so that a ledger
which the batch has cut in two is read to its end. If a ledger has as many events as a batch,
though, the next batch is the same one, and the cycle goes on for ever.

`UrithiBidz.Indexer.Loop` runs the loop of one cycle, with a node that answers and does not grow,
and with handlers that may fail. As long as every ledger fits into a batch, with room to spare,
the events ahead of the cursor become fewer with every batch (`UrithiBidz.Indexer.toGo_lt`), and
none is passed by (`UrithiBidz.Indexer.Paged`). So the cycle ends, after all of them were
attempted, exactly in that case: `UrithiBidz.Indexer.cycleEnds_iff`.
-/

namespace UrithiBidz

/-! ### The loop -/

/-- The step is one of the loop of a cycle: a batch comes, one of its events is processed, or it
is over; after an empty one the latest ledger is asked for, and comes or not. -/
def Tick.InLoop (i : Tick) : Prop :=
  match i.action, i.before.phase with
  | .returns true, .fetch _ => True
  | .process _ _, .batch _ _ => True
  | .endBatch, .batch _ _ => True
  | .returns _, .latest => True
  | _, _ => False

/-- An event is processed, whatever comes of it. -/
def Tick.Attempts (i : Tick) (e : LogEntry) : Prop :=
  ∃ now failure rest full, i.action = .process now failure ∧
    i.before.phase = .batch (e :: rest) full

namespace Indexer

/-- **The loop of a cycle**, from a state on. -/
abbrev Loop (batchSize : ℕ) (s : Indexer) : List Tick → Indexer → Prop :=
  History (fun t => t = s) fun t i t' =>
    i.before = t ∧ t.next batchSize i.action = some t' ∧ i.InLoop

/-- The last ledger when the rest of a batch has been processed. -/
def lastOf (s : Indexer) (rest : List LogEntry) : ℕ :=
  rest.foldl (fun n e => max n e.ledger) s.lastLedger

variable {s s' : Indexer} {batchSize : ℕ}

theorem le_foldl_max (entries : List LogEntry) (n : ℕ) :
    n ≤ entries.foldl (fun n e => max n e.ledger) n := by
  induction entries generalizing n with
  | nil => exact le_refl n
  | cons e entries ih => exact (le_max_left _ _).trans (ih _)

theorem ledger_le_lastOf {rest : List LogEntry} : ∀ e ∈ rest, e.ledger ≤ s.lastOf rest := by
  unfold lastOf
  generalize s.lastLedger = n
  induction rest generalizing n with
  | nil => exact fun e he => absurd he List.not_mem_nil
  | cons e rest ih =>
    intro e' he'
    rcases List.mem_cons.mp he' with rfl | he'
    · exact (le_max_right _ _).trans (le_foldl_max rest _)
    · exact ih _ e' he'

theorem lastOf_le {rest : List LogEntry} {n : ℕ} (hlast : s.lastLedger ≤ n)
    (hrest : ∀ e ∈ rest, e.ledger ≤ n) : s.lastOf rest ≤ n := by
  unfold lastOf
  generalize s.lastLedger = m at hlast ⊢
  induction rest generalizing m with
  | nil => exact hlast
  | cons e rest ih =>
    obtain ⟨hfirst, hrest⟩ := List.forall_mem_cons.mp hrest
    exact ih hrest _ (max_le hlast hfirst)

/-- **The steps of the loop, one by one.** -/
inductive Turns (batchSize : ℕ) (s : Indexer) : Action → Indexer → Prop
  | fetched {cursorLedger : ℕ} (hp : s.phase = .fetch cursorLedger)
      (hsome : s.node.getEvents cursorLedger batchSize ≠ []) :
    Turns batchSize s (.returns true) { s with
      phase := .batch (s.node.getEvents cursorLedger batchSize)
        (batchSize ≤ (s.node.getEvents cursorLedger batchSize).length) }
  | fetchedNone {cursorLedger : ℕ} (hp : s.phase = .fetch cursorLedger)
      (hnone : s.node.getEvents cursorLedger batchSize = []) :
    Turns batchSize s (.returns true) { s with phase := .latest }
  | process {now : ℤ} {failure : Option ℕ} {db : Database} {e : LogEntry}
      {rest : List LogEntry} {full : Bool} (hp : s.phase = .batch (e :: rest) full) :
    Turns batchSize s (.process now failure) { s with
      db := db
      lastLedger := max s.lastLedger e.ledger
      phase := .batch rest full }
  | endBatch {full : Bool} (hp : s.phase = .batch [] full) :
    Turns batchSize s .endBatch
      { s with phase := if full then .fetch s.lastLedger else .save }
  | finished {ok : Bool} {lastLedger : ℕ} (hp : s.phase = .latest) :
    Turns batchSize s (.returns ok) { s with lastLedger := lastLedger, phase := .save }

theorem turns_of_next {i : Tick} (hbefore : i.before = s)
    (h : s.next batchSize i.action = some s') (hloop : i.InLoop) :
    Turns batchSize s i.action s' := by
  have hmoves := moves_of_next h
  unfold Tick.InLoop at hloop
  rw [hbefore] at hloop
  generalize i.action = action at hmoves hloop
  cases hmoves with
  | fetched hp hsome => exact .fetched hp hsome
  | fetchedNone hp hnone => exact .fetchedNone hp hnone
  | process hp => exact .process hp
  | endBatch hp => exact .endBatch hp
  | advanced hp => exact .finished hp
  | notAdvanced hp => exact .finished hp
  | close => cases hloop
  | restart => cases hloop
  | poll => cases hloop
  | loaded hp => simp only [hp] at hloop
  | notLoaded hp => simp only [hp] at hloop
  | chosen hp => simp only [hp] at hloop
  | notChosen hp => simp only [hp] at hloop
  | notFetched hp => simp only [hp] at hloop
  | saved hp => simp only [hp] at hloop
  | notSaved hp => simp only [hp] at hloop

/-! ### No event is passed by -/

/-- The event is still ahead in the cycle. -/
def Ahead (s : Indexer) (e : LogEntry) : Prop :=
  match s.phase with
  | .fetch cursorLedger => cursorLedger ≤ e.ledger
  | .batch rest full => e ∈ rest ∨ (full = true ∧ s.lastOf rest ≤ e.ledger)
  | _ => False

/-- The cycle is behind the ledger at which it has started. -/
def Behind (start : ℕ) (s : Indexer) : Prop :=
  match s.phase with
  | .fetch cursorLedger => s.lastLedger ≤ cursorLedger ∧ start < cursorLedger
  | .batch rest _ => start < s.lastOf rest
  | .latest => True
  | .save => True
  | _ => False

/-- **Where a cycle is**, that was started from a state. -/
structure Paged (s : Indexer) (tr : List Tick) (s' : Indexer) : Prop where
  node : s'.node = s.node
  behind : s'.Behind s.lastLedger
  attempted : ∀ e ∈ s.node.entries, s.lastLedger < e.ledger →
    (∃ i ∈ tr, i.Attempts e) ∨ s'.Ahead e

variable {s₀ : Indexer} {tr : List Tick}

/-- **Where a step takes it.** -/
theorem Paged.turn (h : s₀.Paged tr s) {i : Tick} (hbefore : i.before = s)
    (hsorted : s₀.node.entries.Pairwise fun e e' => e.ledger ≤ e'.ledger)
    (hlimit : 1 ≤ batchSize) (hturn : Turns batchSize s i.action s') :
    s₀.Paged (tr ++ [i]) s' := by
  have hnode := h.node
  have hbehind := h.behind
  -- whatever was attempted before stays so, and only what is ahead needs a look
  have hpast : ∀ e ∈ s₀.node.entries, s₀.lastLedger < e.ledger →
      (∃ j ∈ tr ++ [i], j.Attempts e) ∨ s.Ahead e := fun e he hlt =>
    (h.attempted e he hlt).imp_left fun ⟨j, hj, hdone⟩ => ⟨j, List.mem_append_left _ hj, hdone⟩
  generalize haction : i.action = action at hturn
  cases hturn with
  | @fetched c hp hsome =>
    simp only [Behind, hp] at hbehind
    obtain ⟨hlast, hstart⟩ := hbehind
    refine ⟨hnode, ?_, fun e he hlt => (hpast e he hlt).imp_right fun hahead => ?_⟩
    · obtain ⟨e, he⟩ := List.exists_mem_of_ne_nil _ hsome
      exact hstart.trans_le ((Paging.mem_of_mem_page he).2.trans (ledger_le_lastOf e he))
    · simp only [Ahead, hp] at hahead
      rw [← hnode] at he hsorted
      by_cases hfull : batchSize ≤ (s.node.getEvents c batchSize).length
      · -- what the batch does not have comes from its last ledger on
        rcases Paging.mem_page_or_le hsorted he hahead with hmem | hle
        · exact Or.inl hmem
        · exact Or.inr ⟨decide_eq_true hfull, lastOf_le (hlast.trans hahead) hle⟩
      · exact Or.inl (Paging.mem_page_of_short (not_le.mp hfull) he hahead)
  | @fetchedNone c hp hnone =>
    refine ⟨hnode, trivial, fun e he hlt => (hpast e he hlt).imp_right fun hahead => ?_⟩
    simp only [Ahead, hp] at hahead
    rw [← hnode] at he
    -- an empty batch is short, so nothing is ahead
    have hshort : (s.node.getEvents c batchSize).length < batchSize := by
      rw [hnone]
      exact hlimit
    have hmem : e ∈ s.node.getEvents c batchSize := Paging.mem_page_of_short hshort he hahead
    rw [hnone] at hmem
    exact absurd hmem List.not_mem_nil
  | @process now failure db e rest full hp =>
    simp only [Behind, hp] at hbehind
    refine ⟨hnode, hbehind, fun e' he' hlt => ?_⟩
    rcases hpast e' he' hlt with hdone | hahead
    · exact Or.inl hdone
    · simp only [Ahead, hp] at hahead
      rcases hahead with hmem | hlater
      · rcases List.mem_cons.mp hmem with rfl | hmem
        · exact Or.inl ⟨i, by simp, now, failure, rest, full, haction, hbefore ▸ hp⟩
        · exact Or.inr (Or.inl hmem)
      · exact Or.inr (Or.inr hlater)
  | @endBatch full hp =>
    simp only [Behind, hp] at hbehind
    -- a batch that was full is followed by another one from its last ledger on
    rcases full with _ | _
    · refine ⟨hnode, trivial, fun e he hlt => (hpast e he hlt).imp_right fun hahead => ?_⟩
      simp only [Ahead, hp] at hahead
      rcases hahead with hmem | ⟨hfull, -⟩
      · exact absurd hmem List.not_mem_nil
      · exact absurd hfull Bool.false_ne_true
    · refine ⟨hnode, ⟨le_refl _, hbehind⟩, fun e he hlt =>
        (hpast e he hlt).imp_right fun hahead => ?_⟩
      simp only [Ahead, hp] at hahead
      rcases hahead with hmem | ⟨-, hle⟩
      · exact absurd hmem List.not_mem_nil
      · exact hle
  | finished hp =>
    refine ⟨hnode, trivial, fun e he hlt => (hpast e he hlt).imp_right fun hahead => ?_⟩
    simp only [Ahead, hp] at hahead

/-- **No event is passed by**, along the loop. -/
theorem Loop.paged (h : s₀.Loop batchSize tr s)
    (hsorted : s₀.node.entries.Pairwise fun e e' => e.ledger ≤ e'.ledger)
    (hlimit : 1 ≤ batchSize) (hp : s₀.phase = .fetch (s₀.lastLedger + 1)) : s₀.Paged tr s := by
  refine History.invariant ?_ ?_ h
  · rintro s rfl
    refine ⟨rfl, ?_, fun e he hlt => Or.inr ?_⟩
    · simp only [Behind, hp]
      omega
    · simp only [Ahead, hp]
      exact hlt
  · rintro tr s i s' hpast hpaged ⟨hbefore, hnext, hloop⟩
    exact hpaged.turn hbefore hsorted hlimit (turns_of_next hbefore hnext hloop)

/-! ### How much is to go -/

/-- What a cycle still has to do at most, counted in steps. -/
def toGo (batchSize : ℕ) (s : Indexer) : ℕ :=
  match s.phase with
  | .fetch c => (batchSize + 3) * (Paging.remaining LogEntry.ledger s.node.entries c + 1)
  | .batch rest full => rest.length + 2 + if full then
      (batchSize + 3) * (Paging.remaining LogEntry.ledger s.node.entries (s.lastOf rest) + 1)
    else 0
  | .latest => 1
  | _ => 0

/-- **A step makes it less**, if no ledger fills a batch. -/
theorem toGo_lt {start : ℕ} (hbehind : s.Behind start) {action : Action}
    (hturn : Turns batchSize s action s')
    (hsparse : ∀ ledger, start < ledger →
      (s.node.entries.countP fun e => e.ledger = ledger) < batchSize) :
    s'.toGo batchSize < s.toGo batchSize := by
  cases hturn with
  | @fetched c hp hsome =>
    simp only [Behind, hp] at hbehind
    have hlength : (s.node.getEvents c batchSize).length ≤ batchSize := List.length_take_le _ _
    simp only [toGo, hp]
    split
    · next hfull =>
      have hfull' := of_decide_eq_true hfull
      obtain ⟨e, he⟩ := List.exists_mem_of_ne_nil _ hsome
      have hle : c ≤ s.lastOf (s.node.getEvents c batchSize) :=
        (Paging.mem_of_mem_page he).2.trans (ledger_le_lastOf e he)
      -- a ledger does not fill a batch, so the next one starts later
      have hless : Paging.remaining LogEntry.ledger s.node.entries
          (s.lastOf (s.node.getEvents c batchSize)) <
            Paging.remaining LogEntry.ledger s.node.entries c :=
        Paging.remaining_lt hfull' hle ledger_le_lastOf (hsparse _ (hbehind.2.trans_le hle))
      calc (s.node.getEvents c batchSize).length + 2 + (batchSize + 3) *
            (Paging.remaining LogEntry.ledger s.node.entries
              (s.lastOf (s.node.getEvents c batchSize)) + 1)
          < (batchSize + 3) + (batchSize + 3) * (Paging.remaining LogEntry.ledger s.node.entries
              (s.lastOf (s.node.getEvents c batchSize)) + 1) := Nat.add_lt_add_right (by omega) _
        _ = (batchSize + 3) * (Paging.remaining LogEntry.ledger s.node.entries
              (s.lastOf (s.node.getEvents c batchSize)) + 1 + 1) := by ring
        _ ≤ (batchSize + 3) * (Paging.remaining LogEntry.ledger s.node.entries c + 1) :=
          Nat.mul_le_mul_left _ (Nat.succ_le_succ hless)
    · -- the cycle ends, and the pages that were to come are more than this
      have hmul : batchSize + 3 ≤ (batchSize + 3) *
          (Paging.remaining LogEntry.ledger s.node.entries c + 1) :=
        Nat.le_mul_of_pos_right _ (Nat.succ_pos _)
      omega
  | @fetchedNone c hp hnone =>
    have hmul : batchSize + 3 ≤ (batchSize + 3) *
        (Paging.remaining LogEntry.ledger s.node.entries c + 1) :=
      Nat.le_mul_of_pos_right _ (Nat.succ_pos _)
    simp only [toGo, hp]
    omega
  | @process now failure db e rest full hp =>
    simp only [toGo, hp, List.length_cons]
    exact Nat.add_lt_add_right (by omega) _
  | @endBatch full hp =>
    rcases full with _ | _
    · simp [toGo, hp]
    · simp only [toGo, hp, if_true]
      exact Nat.lt_add_of_pos_left (Nat.succ_pos 1)
  | finished hp =>
    simp only [toGo, hp]
    exact Nat.one_pos

/-! ### Going on for ever -/

/-- The cycle has not come past a ledger. -/
def StuckAt (ledger : ℕ) (s : Indexer) : Prop :=
  match s.phase with
  | .fetch c => c ≤ ledger
  | .batch rest full => full = true ∧ s.lastOf rest ≤ ledger
  | _ => False

/-- **It does not come past a ledger that fills a batch.** -/
theorem StuckAt.turn {start ledger : ℕ} (h : s.StuckAt ledger) (hbehind : s.Behind start)
    (hsorted : s.node.entries.Pairwise fun e e' => e.ledger ≤ e'.ledger) (hlimit : 1 ≤ batchSize)
    (hcrowd : batchSize ≤ s.node.entries.countP fun e => e.ledger = ledger) {action : Action}
    (hturn : Turns batchSize s action s') : s'.StuckAt ledger := by
  cases hturn with
  | @fetched c hp hsome =>
    simp only [StuckAt, hp] at h
    simp only [Behind, hp] at hbehind
    obtain ⟨hlength, hle⟩ := Paging.page_le hsorted h hcrowd
    exact ⟨decide_eq_true hlength.ge, lastOf_le (hbehind.1.trans h) hle⟩
  | @fetchedNone c hp hnone =>
    simp only [StuckAt, hp] at h
    have hlength : (s.node.getEvents c batchSize).length = batchSize :=
      (Paging.page_le hsorted h hcrowd).1
    rw [hnone, List.length_nil] at hlength
    omega
  | process hp =>
    simp only [StuckAt, hp] at h
    exact h
  | endBatch hp =>
    simp only [StuckAt, hp] at h
    obtain ⟨rfl, hle⟩ := h
    exact hle
  | finished hp =>
    simp only [StuckAt, hp] at h

/-- A step of the loop is possible until it is left. -/
theorem exists_turn (batchSize : ℕ) {start : ℕ} (hbehind : s.Behind start)
    (hnot : s.phase ≠ .save) :
    ∃ (i : Tick) (s' : Indexer), i.before = s ∧ s.next batchSize i.action = some s' ∧
      i.InLoop := by
  rcases hp : s.phase with _ | _ | _ | c | ⟨_ | ⟨e, rest⟩, full⟩ | _ | _
  · simp only [Behind, hp] at hbehind
  · simp only [Behind, hp] at hbehind
  · simp only [Behind, hp] at hbehind
  · obtain ⟨s', hs'⟩ : ∃ s', s.next batchSize (.returns true) = some s' := by
      simp only [next, returned, hp]
      split <;> exact ⟨_, rfl⟩
    exact ⟨⟨s, .returns true⟩, s', rfl, hs', by simp only [Tick.InLoop, hp]⟩
  · obtain ⟨s', hs'⟩ : ∃ s', s.next batchSize .endBatch = some s' := by
      simp only [next, hp]
      exact ⟨_, rfl⟩
    exact ⟨⟨s, .endBatch⟩, s', rfl, hs', by simp only [Tick.InLoop, hp]⟩
  · obtain ⟨s', hs'⟩ : ∃ s', s.next batchSize (.process 0 none) = some s' := by
      simp only [next, hp]
      exact ⟨_, rfl⟩
    exact ⟨⟨s, .process 0 none⟩, s', rfl, hs', by simp only [Tick.InLoop, hp]⟩
  · obtain ⟨s', hs'⟩ : ∃ s', s.next batchSize (.returns true) = some s' := by
      simp only [next, returned, hp]
      exact ⟨_, rfl⟩
    exact ⟨⟨s, .returns true⟩, s', rfl, hs', by simp only [Tick.InLoop, hp]⟩
  · exact absurd hp hnot

/-! ### When a cycle ends -/

/-- **A cycle ends**: its loop cannot go on for ever, it is not left before all events ahead of
the cursor have been attempted, and it is not stuck anywhere else. -/
structure CycleEnds (batchSize : ℕ) (s : Indexer) : Prop where
  bounded : ∃ n, ∀ tr s', s.Loop batchSize tr s' → tr.length ≤ n
  attempted : ∀ tr s', s.Loop batchSize tr s' → s'.phase = .save →
    ∀ e ∈ s.node.entries, s.lastLedger < e.ledger → ∃ i ∈ tr, i.Attempts e
  goes_on : ∀ tr s', s.Loop batchSize tr s' → s'.phase ≠ .save →
    ∃ i s'', s.Loop batchSize (tr ++ [i]) s''

/-- A cycle that meets a ledger which fills a batch has runs of all lengths. -/
theorem exists_loop (hp : s.phase = .fetch (s.lastLedger + 1)) (hlimit : 1 ≤ batchSize)
    (hsorted : s.node.entries.Pairwise fun e e' => e.ledger ≤ e'.ledger) {ledger : ℕ}
    (hahead : s.lastLedger < ledger)
    (hcrowd : batchSize ≤ s.node.entries.countP fun e => e.ledger = ledger) (n : ℕ) :
    ∃ tr s', s.Loop batchSize tr s' ∧ tr.length = n := by
  have hstuck : s.StuckAt ledger := by
    simp only [StuckAt, hp]
    exact hahead
  obtain ⟨tr, t, h, -, hlength⟩ : ∃ tr t, s.Loop batchSize tr t ∧ t.StuckAt ledger ∧
      tr.length = n := by
    refine History.exists_length_eq _ ?_ hstuck (fun tr t h ht => ?_) n
    · rfl
    have hpaged := Loop.paged h hsorted hlimit hp
    have hnot : t.phase ≠ .save := fun hsave => by simp only [StuckAt, hsave] at ht
    obtain ⟨i, t', hbefore, hnext, hloop⟩ := exists_turn batchSize hpaged.behind hnot
    refine ⟨i, t', ⟨hbefore, hnext, hloop⟩, ?_⟩
    rw [← hpaged.node] at hsorted hcrowd
    exact ht.turn hpaged.behind hsorted hlimit hcrowd (turns_of_next hbefore hnext hloop)
  exact ⟨tr, t, h, hlength⟩

/-- **A cycle ends exactly if every ledger ahead has fewer events than a batch.** -/
theorem cycleEnds_iff (hp : s.phase = .fetch (s.lastLedger + 1)) (hlimit : 1 ≤ batchSize)
    (hsorted : s.node.entries.Pairwise fun e e' => e.ledger ≤ e'.ledger) :
    s.CycleEnds batchSize ↔ ∀ ledger, s.lastLedger < ledger →
      (s.node.entries.countP fun e => e.ledger = ledger) < batchSize := by
  constructor
  · intro hends ledger hahead
    by_contra! hcrowd
    obtain ⟨n, hn⟩ := hends.bounded
    obtain ⟨tr, s', h, hlength⟩ := exists_loop hp hlimit hsorted hahead hcrowd (n + 1)
    have hle := hn tr s' h
    omega
  · intro hsparse
    refine ⟨⟨s.toGo batchSize, fun tr s' h => ?_⟩, fun tr s' h hsave e he hlt => ?_,
      fun tr s' h hnot => ?_⟩
    · refine (Nat.le_add_right _ _).trans (History.length_add_le (toGo batchSize) ?_ ?_ h)
      · rintro t rfl
        exact le_refl _
      · rintro tr t i t' hpast ⟨hbefore, hnext, hloop⟩
        have hpaged := Loop.paged hpast hsorted hlimit hp
        rw [← hpaged.node] at hsparse
        exact toGo_lt hpaged.behind (turns_of_next hbefore hnext hloop) hsparse
    · rcases (Loop.paged h hsorted hlimit hp).attempted e he hlt with hdone | hahead
      · exact hdone
      · simp only [Ahead, hsave] at hahead
    · obtain ⟨i, s'', hstep⟩ := exists_turn batchSize
        (Loop.paged h hsorted hlimit hp).behind hnot
      exact ⟨i, s'', h.snoc hstep⟩

end Indexer

/-- A cycle begins, with two events in the next ledger and one in the ledger behind it. -/
def Stage.cycle : Indexer where
  node := ⟨102, [extended 1 1 101, extended 2 2 101, extended 3 1 102]⟩
  lastLedger := 100
  phase := .fetch 101
  db := { Database.blank with cursor := 100 }
  origin := some 100

theorem Stage.sorted_cycle :
    Stage.cycle.node.entries.Pairwise fun e e' => e.ledger ≤ e'.ledger := by
  change List.Pairwise (fun e e' => e.ledger ≤ e'.ledger)
    [extended 1 1 101, extended 2 2 101, extended 3 1 102]
  decide

/-- The theorem at this cycle, with batches of three. -/
theorem cycleEnds_cycle : Stage.cycle.CycleEnds 3 := by
  refine (Indexer.cycleEnds_iff rfl (by decide) Stage.sorted_cycle).mpr fun ledger _ => ?_
  change List.countP (fun e => e.ledger = ledger) [Stage.extended 1 1 101,
    Stage.extended 2 2 101, Stage.extended 3 1 102] < 3
  by_cases hledger : ledger = 101
  · rw [hledger]
    decide
  · have hne : ∀ id auctionId, ¬(Stage.extended id auctionId 101).ledger = ledger :=
      fun _ _ heq => hledger heq.symm
    rw [List.countP_cons_of_neg (by simpa using hne 1 1),
      List.countP_cons_of_neg (by simpa using hne 2 2)]
    exact Nat.lt_of_le_of_lt List.countP_le_length (by decide)

/-- **A cycle may not end**: with batches of two, the two events of the next ledger come again
and again. -/
theorem exists_endless : ¬∀ (s : Indexer) (batchSize : ℕ),
    s.phase = .fetch (s.lastLedger + 1) → 1 ≤ batchSize →
      s.node.entries.Pairwise (fun e e' => e.ledger ≤ e'.ledger) → s.CycleEnds batchSize := by
  intro hclaim
  obtain ⟨n, hn⟩ := (hclaim Stage.cycle 2 rfl (by decide) Stage.sorted_cycle).bounded
  obtain ⟨tr, s', h, hlength⟩ := Indexer.exists_loop (s := Stage.cycle) rfl (show 1 ≤ 2 by decide)
    Stage.sorted_cycle (show 100 < 101 by decide) (by decide) (n + 1)
  have hle := hn tr s' h
  omega

end UrithiBidz
