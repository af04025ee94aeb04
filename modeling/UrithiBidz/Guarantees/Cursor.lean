import UrithiBidz.Indexer.Poll
import UrithiBidz.Library.Paging

/-!
# The cursor of the indexer

The last ledger that the indexer remembers should be one up to which every event has been
handled, for it never goes back. It is moved in three places, and each of them can leave
events behind: past an event whose handler has failed; after an empty batch, to a ledger that
may have closed, with events in it, since the batch was asked for; and from page to page,
where a page may end in the middle of a ledger, so that the cycle has to go on for the ledger
to be complete. A fourth gap is at the start of the process, when the saved cursor cannot be
read and the indexer starts over near the end of the chain.

`UrithiBidz.Tick.KeepsCursor` excludes the four. The invariant of the steps that are left is
`UrithiBidz.Indexer.Sound`: in every phase of a cycle it says which events are dealt with,
and which are still ahead. `UrithiBidz.Polls.cursorSafe` reads the result off, and
`UrithiBidz.exists_skipped` is a run into the first gap.
-/

namespace UrithiBidz

/-! ### Steps that keep the cursor safe -/

/-- The handler of the event can read it, and the tables admit the queries that it makes. -/
def Database.Admits (db : Database) (now : ℤ) (event : SorobanEvent) : Prop :=
  match processEvent now event with
  | .ok calls => (db.run calls).2 = true
  | .error _ => False

instance (db : Database) (now : ℤ) (event : SorobanEvent) : Decidable (db.Admits now event) := by
  unfold Database.Admits
  split <;> infer_instance

/-- An event that is admitted is handled, unless the database fails. -/
theorem Database.Admits.completes {db : Database} {now : ℤ} {event : SorobanEvent}
    (h : db.Admits now event) : (db.process now none event).2 = true := by
  unfold Admits at h
  unfold process handle
  generalize processEvent now event = called at h ⊢
  cases called with
  | ok calls => exact h
  | error message => exact h.elim

/-- **The step keeps the cursor safe.** The database does not fail in a handler, and admits
what it does. When the latest ledger is told after an empty batch, no event has appeared in
between. The indexer chooses a ledger to start from only once. The first page of a cycle may
fail, but not a later one. -/
def Tick.KeepsCursor (i : Tick) : Prop :=
  match i.action, i.before.phase with
  | .process now failure, .batch (e :: _) _ =>
    failure = none ∧ i.before.db.Admits now e.event
  | .returns true, .latest => ∀ e ∈ i.before.node.entries, e.ledger ≤ i.before.lastLedger
  | .returns true, .init => i.before.origin = none
  | .returns false, .fetch cursorLedger => i.before.lastLedger < cursorLedger
  | _, _ => True

instance (i : Tick) : Decidable i.KeepsCursor := by
  unfold Tick.KeepsCursor
  split <;> infer_instance

/-! ### The invariant -/

/-- The event is behind the origin, or its handler has completed. -/
def Accounted (origin : Option ℕ) (tr : List Tick) (e : LogEntry) : Prop :=
  ∀ c, origin = some c → c < e.ledger → ∃ i ∈ tr, i.Completes e

theorem Accounted.mono {origin : Option ℕ} {tr : List Tick} {e : LogEntry}
    (h : Accounted origin tr e) (i : Tick) : Accounted origin (tr ++ [i]) e := by
  intro c hc hlt
  obtain ⟨j, hj, hdone⟩ := h c hc hlt
  exact ⟨j, List.mem_append_left _ hj, hdone⟩

namespace Indexer

/-- All events up to a ledger are accounted for. -/
def Done (s : Indexer) (tr : List Tick) (n : ℕ) : Prop :=
  ∀ e ∈ s.node.entries, e.ledger ≤ n → Accounted s.origin tr e

/-- **What is dealt with, and what is ahead**, in each phase of a cycle. -/
def InPhase (s : Indexer) (tr : List Tick) : Prop :=
  match s.phase with
  | .idle => s.Done tr s.lastLedger
  | .load => s.lastLedger = 0
  | .init => s.lastLedger = 0
  | .fetch cursorLedger => s.lastLedger ≠ 0 ∧ s.lastLedger ≤ cursorLedger ∧
      cursorLedger ≤ s.lastLedger + 1 ∧ s.Done tr (cursorLedger - 1)
  | .batch rest full => s.lastLedger ≠ 0 ∧ ∃ past future,
      s.node.entries = past ++ (rest ++ future) ∧ (∀ e ∈ past, Accounted s.origin tr e) ∧
        (∀ e ∈ rest ++ future, s.lastLedger ≤ e.ledger) ∧
        (full = false → ∀ e ∈ future, s.lastLedger < e.ledger ∧ ∀ r ∈ rest, r.ledger < e.ledger)
  | .latest => s.lastLedger ≠ 0 ∧ s.Done tr s.lastLedger
  | .save => s.lastLedger ≠ 0 ∧ s.Done tr s.lastLedger

/-- **The invariant.** -/
structure Sound (s : Indexer) (tr : List Tick) : Prop where
  sorted : s.node.entries.Pairwise fun e e' => e.ledger ≤ e'.ledger
  bounded : ∀ e ∈ s.node.entries, e.ledger ≤ s.node.latest
  last_le : s.lastLedger ≤ s.node.latest
  cursor_le : s.db.cursor ≤ s.node.latest
  unset : s.origin = none → s.lastLedger = 0 ∧ s.db.cursor = 0
  ahead : s.lastLedger ≠ 0 → s.db.cursor ≤ s.lastLedger
  saved : s.Done tr s.db.cursor
  inPhase : s.InPhase tr

variable {s s' : Indexer} {tr : List Tick} {batchSize : ℕ}

theorem Done.mono {n : ℕ} (h : s.Done tr n) (i : Tick) : s.Done (tr ++ [i]) n :=
  fun e he hle => (h e he hle).mono i

theorem done_of_le {n : ℕ} (h : ∀ c, s.origin = some c → n ≤ c) : s.Done tr n := by
  intro e _ hle c hc hlt
  have hn := h c hc
  omega

theorem Sound.mono (h : s.Sound tr) (i : Tick) : s.Sound (tr ++ [i]) := by
  refine { h with saved := h.saved.mono i, inPhase := ?_ }
  have hphase := h.inPhase
  unfold InPhase at hphase ⊢
  split at hphase <;> rename_i hcase
  · exact hphase.mono i
  · exact hphase
  · exact hphase
  · exact ⟨hphase.1, hphase.2.1, hphase.2.2.1, hphase.2.2.2.mono i⟩
  · obtain ⟨hne, past, future, hsplit, hpast, hahead⟩ := hphase
    exact ⟨hne, past, future, hsplit, fun e he => (hpast e he).mono i, hahead⟩
  · exact ⟨hphase.1, hphase.2.mono i⟩
  · exact ⟨hphase.1, hphase.2.mono i⟩

theorem Sound.to_phase (h : s.Sound tr) (phase : Phase)
    (hp : ({ s with phase := phase } : Indexer).InPhase tr) :
    ({ s with phase := phase } : Indexer).Sound tr where
  sorted := h.sorted
  bounded := h.bounded
  last_le := h.last_le
  cursor_le := h.cursor_le
  unset := h.unset
  ahead := h.ahead
  saved := h.saved
  inPhase := hp

/-- The indexer has chosen its origin once it has a ledger. -/
theorem Sound.origin_ne (h : s.Sound tr) (hne : s.lastLedger ≠ 0) : s.origin ≠ none :=
  fun hnone => hne (h.unset hnone).1

/-! ### What happens around the indexer -/

theorem Done.close {n : ℕ} (h : s.Done tr n) {entries : List LogEntry}
    (hnew : ∀ e ∈ entries, n < e.ledger) (node : Node)
    (hnode : node.entries = s.node.entries ++ entries) :
    ({ s with node := node } : Indexer).Done tr n := by
  intro e he hle
  have he : e ∈ s.node.entries ++ entries := hnode ▸ he
  rcases List.mem_append.mp he with he | he
  · exact h e he hle
  · have hlt := hnew e he
    omega

/-- **A ledger closes.** -/
theorem Sound.close (h : s.Sound tr) {entries : List LogEntry}
    (hnew : ∀ e ∈ entries, e.ledger = s.node.latest + 1) :
    ({ s with node := ⟨s.node.latest + 1, s.node.entries ++ entries⟩ } : Indexer).Sound tr := by
  have hlate : ∀ n ≤ s.node.latest, ∀ e ∈ entries, n < e.ledger := fun n hn e he => by
    rw [hnew e he]
    omega
  refine ⟨?_, ?_, ?_, ?_, h.unset, h.ahead, h.saved.close (hlate _ h.cursor_le) _ rfl, ?_⟩
  · refine List.pairwise_append.mpr ⟨h.sorted, ?_, fun e he e' he' => ?_⟩
    · refine List.Pairwise.imp_of_mem (R := fun _ _ => True) (fun he he' _ => ?_)
        (List.pairwise_of_forall fun _ _ => trivial)
      rw [hnew _ he, hnew _ he']
    · exact (h.bounded e he).trans (hlate _ (le_refl _) e' he').le
  · intro e he
    rcases List.mem_append.mp he with he | he
    · exact (h.bounded e he).trans (Nat.le_succ _)
    · exact (hnew e he).le
  · exact h.last_le.trans (Nat.le_succ _)
  · exact h.cursor_le.trans (Nat.le_succ _)
  · have hphase := h.inPhase
    have hlast := h.last_le
    unfold InPhase at hphase ⊢
    cases hp : s.phase with
    | idle =>
      simp only [hp] at hphase ⊢
      exact hphase.close (hlate _ hlast) _ rfl
    | load =>
      simp only [hp] at hphase ⊢
      exact hphase
    | init =>
      simp only [hp] at hphase ⊢
      exact hphase
    | fetch cursorLedger =>
      simp only [hp] at hphase ⊢
      obtain ⟨hne, hle, hle', hdone⟩ := hphase
      exact ⟨hne, hle, hle', hdone.close (hlate _ (by omega)) _ rfl⟩
    | batch rest full =>
      simp only [hp] at hphase ⊢
      obtain ⟨hne, past, future, hsplit, hpast, hahead, hfull⟩ := hphase
      -- what is new comes after everything that is there
      refine ⟨hne, past, future ++ entries, ?_, hpast, ?_, fun hnot e he => ?_⟩
      · rw [hsplit, List.append_assoc, List.append_assoc]
      · intro e he
        rw [← List.append_assoc] at he
        rcases List.mem_append.mp he with he | he
        · exact hahead e he
        · exact (hlate _ hlast e he).le
      · rcases List.mem_append.mp he with he | he
        · exact hfull hnot e he
        · refine ⟨hlate _ hlast e he, fun r hr => hlate _ (h.bounded r ?_) e he⟩
          rw [hsplit]
          exact List.mem_append_right _ (List.mem_append_left _ hr)
    | latest =>
      simp only [hp] at hphase ⊢
      exact ⟨hphase.1, hphase.2.close (hlate _ hlast) _ rfl⟩
    | save =>
      simp only [hp] at hphase ⊢
      exact ⟨hphase.1, hphase.2.close (hlate _ hlast) _ rfl⟩

/-- **The process is started again**: all it finds is the cursor. -/
theorem Sound.restart (h : s.Sound tr) {db : Database} (hdb : db.cursor = s.db.cursor) :
    ({ s with db := db, lastLedger := 0, phase := .idle } : Indexer).Sound tr where
  sorted := h.sorted
  bounded := h.bounded
  last_le := Nat.zero_le _
  cursor_le := hdb ▸ h.cursor_le
  unset hnone := ⟨rfl, hdb ▸ (h.unset hnone).2⟩
  ahead hne := absurd rfl hne
  saved := hdb ▸ h.saved
  inPhase := done_of_le fun _ _ => Nat.zero_le _

/-! ### What the indexer does -/

/-- **A cycle starts.** -/
theorem Sound.poll (h : s.Sound tr) (hp : s.phase = .idle) :
    ({ s with phase := if s.lastLedger = 0 then .load else .fetch (s.lastLedger + 1) } :
      Indexer).Sound tr := by
  have hphase := h.inPhase
  simp only [InPhase, hp] at hphase
  refine h.to_phase _ ?_
  by_cases hzero : s.lastLedger = 0
  · rw [if_pos hzero]
    exact hzero
  · rw [if_neg hzero]
    exact ⟨hzero, Nat.le_succ _, le_refl _, hphase⟩

theorem filter_append_filter_of_sorted {entries : List LogEntry}
    (h : entries.Pairwise fun e e' => e.ledger ≤ e'.ledger) (n : ℕ) :
    entries.filter (fun e => e.ledger < n) ++ entries.filter (fun e => n ≤ e.ledger) =
      entries := by
  have hsplit := Paging.filter_append_filter_not (p := fun e : LogEntry => e.ledger < n)
    (h.imp fun hle hlt => lt_of_le_of_lt hle hlt)
  simpa only [not_lt] using hsplit

/-- **The saved cursor is found.** -/
theorem Sound.loaded (h : s.Sound tr) (hpos : 0 < s.db.cursor) :
    ({ s with lastLedger := s.db.cursor, phase := .idle } : Indexer).Sound tr := by
  refine ⟨h.sorted, h.bounded, h.cursor_le, h.cursor_le, fun hnone => ?_, fun _ => le_refl _,
    h.saved, h.saved⟩
  rw [(h.unset hnone).2] at hpos
  omega

/-- **A ledger is chosen** to start from, for the first time. -/
theorem Sound.chosen (h : s.Sound tr) (hfirst : s.origin = none) :
    ({ s with
      lastLedger := s.node.latest - 100
      phase := .idle
      origin := if s.node.latest - 100 = 0 then s.origin else some (s.node.latest - 100) } :
        Indexer).Sound tr := by
  have hzero := (h.unset hfirst).2
  have horigin : ∀ c, (if s.node.latest - 100 = 0 then s.origin
      else some (s.node.latest - 100)) = some c → c = s.node.latest - 100 := by
    intro c hc
    split at hc
    · rw [hfirst] at hc
      cases hc
    · exact (Option.some.inj hc).symm
  refine ⟨h.sorted, h.bounded, Nat.sub_le _ _, h.cursor_le, fun hnone => ⟨?_, hzero⟩,
    fun _ => hzero.le.trans (Nat.zero_le _), done_of_le fun c _ => hzero.le.trans (Nat.zero_le _),
    done_of_le fun c hc => (horigin c hc).ge⟩
  by_contra hne
  simp only [if_neg hne] at hnone
  cases hnone

/-- What comes before the ledger that is asked for is dealt with. -/
theorem Sound.accounted_of_lt (h : s.Sound tr) {cursorLedger : ℕ}
    (hp : s.phase = .fetch cursorLedger) :
    ∀ e ∈ s.node.entries.filter (fun e => e.ledger < cursorLedger), Accounted s.origin tr e := by
  intro e he
  obtain ⟨hmem, hlt⟩ := List.mem_filter.mp he
  have hphase := h.inPhase
  simp only [InPhase, hp] at hphase
  exact hphase.2.2.2 e hmem (Nat.le_sub_one_of_lt (by simpa using hlt))

/-- **A batch arrives.** -/
theorem Sound.fetched (h : s.Sound tr) {cursorLedger : ℕ} (hp : s.phase = .fetch cursorLedger) :
    ({ s with
      phase := .batch (s.node.getEvents cursorLedger batchSize)
        (batchSize ≤ (s.node.getEvents cursorLedger batchSize).length) } : Indexer).Sound tr := by
  have hphase := h.inPhase
  simp only [InPhase, hp] at hphase
  obtain ⟨hne, hle, -, -⟩ := hphase
  have hsplit := filter_append_filter_of_sorted h.sorted cursorLedger
  have hahead : ∀ e ∈ s.node.entries.filter (fun e => cursorLedger ≤ e.ledger),
      s.lastLedger ≤ e.ledger := fun e he =>
    hle.trans (by simpa using (List.mem_filter.mp he).2)
  unfold Node.getEvents
  generalize s.node.entries.filter (fun e => cursorLedger ≤ e.ledger) = found at *
  refine h.to_phase _ ⟨hne, _, found.drop batchSize, ?_, h.accounted_of_lt hp, ?_,
    fun hfull e he => ?_⟩
  · rw [List.take_append_drop]
    exact hsplit.symm
  · rw [List.take_append_drop]
    exact hahead
  · -- a batch that is not full is all there is
    have hshort : ¬batchSize ≤ (found.take batchSize).length := by simpa using hfull
    have hempty : found.drop batchSize = [] := by
      rw [List.drop_eq_nil_iff]
      rw [List.length_take] at hshort
      omega
    rw [hempty] at he
    exact absurd he List.not_mem_nil

/-- **The batch is empty**: there are no more events. -/
theorem Sound.fetchedNone (h : s.Sound tr) (hlimit : 1 ≤ batchSize) {cursorLedger : ℕ}
    (hp : s.phase = .fetch cursorLedger)
    (hnone : s.node.getEvents cursorLedger batchSize = []) :
    ({ s with phase := .latest } : Indexer).Sound tr := by
  have hphase := h.inPhase
  simp only [InPhase, hp] at hphase
  have hsplit := filter_append_filter_of_sorted h.sorted cursorLedger
  have hfound : s.node.entries.filter (fun e => cursorLedger ≤ e.ledger) = [] := by
    rcases List.take_eq_nil_iff.mp hnone with hzero | hnil
    · omega
    · exact hnil
  rw [hfound, List.append_nil] at hsplit
  refine h.to_phase _ ⟨hphase.1, fun e he _ => h.accounted_of_lt hp e ?_⟩
  rw [hsplit]
  exact he

/-- **The first page cannot be had**, and everything before it is dealt with. -/
theorem Sound.notFetched (h : s.Sound tr) {cursorLedger : ℕ} (hp : s.phase = .fetch cursorLedger)
    (hfirst : s.lastLedger < cursorLedger) : ({ s with phase := .idle } : Indexer).Sound tr := by
  have hphase := h.inPhase
  simp only [InPhase, hp] at hphase
  obtain ⟨-, -, hle', hdone⟩ := hphase
  have hlast : cursorLedger - 1 = s.lastLedger := by omega
  rw [hlast] at hdone
  exact h.to_phase _ hdone

/-- **The last ledger becomes the latest**, without passing an event. -/
theorem Sound.advanced (h : s.Sound tr) (hp : s.phase = .latest)
    (hnew : ∀ e ∈ s.node.entries, e.ledger ≤ s.lastLedger) :
    ({ s with lastLedger := s.node.latest, phase := .save } : Indexer).Sound tr := by
  have hphase := h.inPhase
  simp only [InPhase, hp] at hphase
  obtain ⟨hne, hdone⟩ := hphase
  refine ⟨h.sorted, h.bounded, le_refl _, h.cursor_le,
    fun hnone => absurd hnone (h.origin_ne hne), fun _ => h.cursor_le, h.saved, ?_,
    fun e he _ => hdone e he (hnew e he)⟩
  exact fun hzero => hne (Nat.le_zero.mp (hzero ▸ h.last_le))

/-- **The cursor is saved.** -/
theorem Sound.save (h : s.Sound tr) (hp : s.phase = .save) :
    ({ s with db := { s.db with cursor := s.lastLedger }, phase := .idle } : Indexer).Sound tr := by
  have hphase := h.inPhase
  simp only [InPhase, hp] at hphase
  exact ⟨h.sorted, h.bounded, h.last_le, h.last_le,
    fun hnone => absurd hnone (h.origin_ne hphase.1), fun _ => le_refl _, hphase.2, hphase.2⟩

/-- **An event is processed**, and its handler completes. -/
theorem Sound.process (h : s.Sound tr) {now : ℤ} {failure : Option ℕ} {e : LogEntry}
    {rest : List LogEntry} {full : Bool} (hp : s.phase = .batch (e :: rest) full)
    (hk : (⟨s, .process now failure⟩ : Tick).KeepsCursor) :
    ({ s with
      db := (s.db.process now failure e.event).1
      lastLedger := max s.lastLedger e.ledger
      phase := .batch rest full } : Indexer).Sound (tr ++ [⟨s, .process now failure⟩]) := by
  have hphase := h.inPhase
  simp only [InPhase, hp] at hphase
  simp only [Tick.KeepsCursor, hp] at hk
  obtain ⟨rfl, hadmits⟩ := hk
  obtain ⟨hne, past, future, hsplit, hpast, hahead, hfull⟩ := hphase
  have hcursor := s.db.cursor_process now none e.event
  have hle : s.lastLedger ≤ e.ledger := hahead e (List.mem_append_left _ List.mem_cons_self)
  have hmax : max s.lastLedger e.ledger = e.ledger := max_eq_right hle
  have hmem : e ∈ s.node.entries := by
    rw [hsplit]
    exact List.mem_append_right _ (List.mem_append_left _ List.mem_cons_self)
  -- the rest of the batch does not come before the event
  have hsorted : ∀ e' ∈ rest ++ future, e.ledger ≤ e'.ledger := by
    have hpairs := h.sorted
    rw [hsplit, List.cons_append] at hpairs
    exact (List.pairwise_cons.mp (List.pairwise_append.mp hpairs).2.1).1
  have hdone : Accounted s.origin (tr ++ [⟨s, .process now none⟩]) e := fun c _ _ =>
    ⟨_, List.mem_append_right _ (List.mem_singleton_self _), now, none, rest, full, rfl, hp,
      hadmits.completes⟩
  have hbig : max s.lastLedger e.ledger ≠ 0 := by omega
  refine ⟨h.sorted, h.bounded, ?_, ?_, fun hnone => absurd hnone (h.origin_ne hne), fun _ => ?_,
    ?_, hbig, past ++ [e], future, ?_, ?_, ?_, fun hnot e' he' => ?_⟩
  · exact max_le h.last_le (h.bounded e hmem)
  · exact hcursor ▸ h.cursor_le
  · exact hcursor ▸ (h.ahead hne).trans (le_max_left _ _)
  · exact hcursor ▸ h.saved.mono _
  · rw [List.append_assoc]
    exact hsplit
  · intro e' he'
    rcases List.mem_append.mp he' with he' | he'
    · exact (hpast e' he').mono _
    · rw [List.mem_singleton.mp he']
      exact hdone
  · intro e' he'
    change max s.lastLedger e.ledger ≤ e'.ledger
    rw [hmax]
    exact hsorted e' he'
  · obtain ⟨-, hlater⟩ := hfull hnot e' he'
    refine ⟨?_, fun r hr => hlater r (List.mem_cons_of_mem _ hr)⟩
    change max s.lastLedger e.ledger < e'.ledger
    rw [hmax]
    exact hlater e List.mem_cons_self

/-- **A batch is over.** -/
theorem Sound.endBatch (h : s.Sound tr) {full : Bool} (hp : s.phase = .batch [] full) :
    ({ s with phase := if full then .fetch s.lastLedger else .save } : Indexer).Sound tr := by
  have hphase := h.inPhase
  simp only [InPhase, hp] at hphase
  obtain ⟨hne, past, future, hsplit, hpast, hahead, hfull⟩ := hphase
  refine h.to_phase _ ?_
  have hmem : ∀ e ∈ s.node.entries, e ∈ past ∨ e ∈ future := fun e he => by
    rw [hsplit, List.nil_append] at he
    exact List.mem_append.mp he
  cases full with
  | true =>
    -- the next page starts with the ledger that this one ended in
    refine ⟨hne, le_refl _, Nat.le_succ _, fun e he hle => ?_⟩
    rcases hmem e he with hold | hnew
    · exact hpast e hold
    · have hlate := hahead e hnew
      omega
  | false =>
    refine ⟨hne, fun e he hle => ?_⟩
    rcases hmem e he with hold | hnew
    · exact hpast e hold
    · have hlate := (hfull rfl e hnew).1
      change e.ledger ≤ s.lastLedger at hle
      omega

/-- **Every step keeps the indexer sound**, if it keeps the cursor safe. -/
theorem Sound.step (h : s.Sound tr) (hlimit : 1 ≤ batchSize) {action : Action}
    (hk : (⟨s, action⟩ : Tick).KeepsCursor) (hmove : Moves batchSize s action s') :
    s'.Sound (tr ++ [⟨s, action⟩]) := by
  have hphase := h.inPhase
  unfold Tick.KeepsCursor at hk
  cases hmove with
  | close hnew => exact (h.close hnew).mono _
  | restart => exact (h.restart (s.cursor_abandoned _)).mono _
  | poll hp => exact (h.poll hp).mono _
  | loaded hp hpos => exact (h.loaded hpos).mono _
  | notLoaded hp =>
    simp only [InPhase, hp] at hphase
    exact Sound.mono (h.to_phase .init hphase) _
  | chosen hp =>
    simp only [hp] at hk
    exact (h.chosen hk).mono _
  | notChosen hp => exact (h.restart rfl).mono _
  | fetched hp hsome => exact (h.fetched hp).mono _
  | fetchedNone hp hnone => exact (h.fetchedNone hlimit hp hnone).mono _
  | notFetched hp =>
    simp only [hp] at hk
    exact (h.notFetched hp hk).mono _
  | advanced hp =>
    simp only [hp] at hk
    exact (h.advanced hp hk).mono _
  | notAdvanced hp =>
    simp only [InPhase, hp] at hphase
    exact Sound.mono (h.to_phase .save hphase) _
  | saved hp => exact (h.save hp).mono _
  | notSaved hp =>
    simp only [InPhase, hp] at hphase
    exact Sound.mono (h.to_phase .idle hphase.2) _
  | process hp => exact h.process hp hk
  | endBatch hp => exact (h.endBatch hp).mono _

/-- An indexer that has not been started is sound. -/
theorem Start.sound (h : s.Start) : s.Sound [] := by
  have horigin : ∀ c, s.origin = some c → c = s.db.cursor ∧ s.db.cursor ≠ 0 := by
    intro c hc
    rw [h.origin] at hc
    split at hc
    · cases hc
    · next hne => exact ⟨(Option.some.inj hc).symm, hne⟩
  refine ⟨h.sorted, h.bounded, ?_, h.cursor_le, fun hnone => ⟨h.unset, ?_⟩,
    fun hne => absurd h.unset hne, done_of_le fun c hc => (horigin c hc).1.ge, ?_⟩
  · rw [h.unset]
    exact Nat.zero_le _
  · by_contra hne
    rw [h.origin, if_neg hne] at hnone
    cases hnone
  · simp only [InPhase, h.idle, h.unset]
    exact done_of_le fun _ _ => Nat.zero_le _

end Indexer

/-! ### Along a run -/

variable {s s' : Indexer} {tr : List Tick} {batchSize : ℕ}

theorem Polls.sound (h : Polls batchSize tr s) (hlimit : 1 ≤ batchSize)
    (hk : ∀ i ∈ tr, i.KeepsCursor) : s.Sound tr := by
  induction h with
  | start h => exact h.sound
  | @snoc tr s s' i hrun hs ih =>
    obtain ⟨rfl, hstep⟩ := hs
    have hpast := ih fun j hj => hk j (List.mem_append_left _ hj)
    exact hpast.step hlimit (hk i (by simp)) (Indexer.moves_of_next hstep)

/-- The event is of the ledger that is being dealt with, and still to come in this cycle: in
the batch, or in the page that follows. -/
def Indexer.Pending (s : Indexer) (e : LogEntry) : Prop :=
  e.ledger = s.lastLedger ∧
    match s.phase with
    | .fetch cursorLedger => cursorLedger ≤ e.ledger
    | .batch rest full => e ∈ rest ∨ full = true
    | _ => False

/-- **The cursor is safe.** -/
structure CursorSafe (batchSize : ℕ) (tr : List Tick) (s : Indexer) : Prop where
  /-- Neither the cursor nor, in one process, the last ledger ever moved backwards. -/
  forward : ∀ i ∈ tr, ∀ s', i.before.next batchSize i.action = some s' →
    i.before.db.cursor ≤ s'.db.cursor ∧
      ((∀ handling, i.action ≠ .restart handling) → i.before.lastLedger ≤ s'.lastLedger)
  /-- Every event from the origin up to the cursor has been handled. -/
  saved : ∀ c, s.origin = some c → ∀ e ∈ s.node.entries, c < e.ledger → e.ledger ≤ s.db.cursor →
    ∃ i ∈ tr, i.Completes e
  /-- So has every event up to the last ledger, but for what the cycle has not come to yet. -/
  last : ∀ c, s.origin = some c → ∀ e ∈ s.node.entries, c < e.ledger → e.ledger ≤ s.lastLedger →
    (∃ i ∈ tr, i.Completes e) ∨ s.Pending e

/-- What is dealt with in a phase covers the last ledger. -/
theorem Indexer.Sound.last (h : s.Sound tr) {c : ℕ} (hc : s.origin = some c) {e : LogEntry}
    (he : e ∈ s.node.entries) (hlt : c < e.ledger) (hle : e.ledger ≤ s.lastLedger) :
    (∃ i ∈ tr, i.Completes e) ∨ s.Pending e := by
  have hphase := h.inPhase
  unfold Pending
  cases hp : s.phase with
  | idle =>
    simp only [InPhase, hp] at hphase
    exact Or.inl (hphase e he hle c hc hlt)
  -- no range is known yet, so nothing is up to the latest ledger
  | load =>
    simp only [InPhase, hp] at hphase
    omega
  | init =>
    simp only [InPhase, hp] at hphase
    omega
  | fetch cursorLedger =>
    simp only [InPhase, hp] at hphase
    obtain ⟨-, hcursor, -, hdone⟩ := hphase
    -- the ledger the cursor stands at is asked for once more
    by_cases hahead : cursorLedger ≤ e.ledger
    · exact Or.inr ⟨le_antisymm hle (hcursor.trans hahead), hahead⟩
    · exact Or.inl (hdone e he (by omega) c hc hlt)
  | batch rest full =>
    simp only [InPhase, hp] at hphase
    obtain ⟨-, past, future, hsplit, hpast, hahead, hfull⟩ := hphase
    rw [hsplit] at he
    rcases List.mem_append.mp he with hold | hnew
    · exact Or.inl (hpast e hold c hc hlt)
    · refine Or.inr ⟨le_antisymm hle (hahead e hnew), ?_⟩
      rcases List.mem_append.mp hnew with hrest | hfuture
      · exact Or.inl hrest
      · -- behind a batch that is not full there is nothing of its ledgers
        refine Or.inr ?_
        by_contra hnot
        have hlate := (hfull (Bool.eq_false_iff.mpr hnot) e hfuture).1
        omega
  | latest =>
    simp only [InPhase, hp] at hphase
    exact Or.inl (hphase.2 e he hle c hc hlt)
  | save =>
    simp only [InPhase, hp] at hphase
    exact Or.inl (hphase.2 e he hle c hc hlt)

/-- **A step goes forward**, from where all is sound: a ledger that is not known is zero. -/
theorem Indexer.Sound.forward (h : s.Sound tr) {action : Action}
    (hmove : Moves batchSize s action s') :
    s.db.cursor ≤ s'.db.cursor ∧
      ((∀ handling, action ≠ .restart handling) → s.lastLedger ≤ s'.lastLedger) := by
  have hphase := h.inPhase
  cases hmove with
  | restart => exact ⟨(s.cursor_abandoned _).ge, fun hne => absurd rfl (hne _)⟩
  | loaded hp hpos =>
    simp only [InPhase, hp] at hphase
    exact ⟨le_refl _, fun _ => hphase.le.trans (Nat.zero_le _)⟩
  | chosen hp =>
    simp only [InPhase, hp] at hphase
    exact ⟨le_refl _, fun _ => hphase.le.trans (Nat.zero_le _)⟩
  | notChosen hp =>
    simp only [InPhase, hp] at hphase
    exact ⟨le_refl _, fun _ => hphase.le⟩
  | advanced hp => exact ⟨le_refl _, fun _ => h.last_le⟩
  | saved hp =>
    simp only [InPhase, hp] at hphase
    exact ⟨h.ahead hphase.1, fun _ => le_refl _⟩
  | @process now failure e _ _ hp =>
    exact ⟨(s.db.cursor_process now failure e.event).ge, fun _ => le_max_left _ _⟩
  | close | poll | notLoaded | fetched | fetchedNone | notFetched | notAdvanced | notSaved
    | endBatch => exact ⟨le_refl _, fun _ => le_refl _⟩

/-- **The cursor is safe** in every run whose steps all keep it so. -/
theorem Polls.cursorSafe (h : Polls batchSize tr s) (hlimit : 1 ≤ batchSize)
    (hk : ∀ i ∈ tr, i.KeepsCursor) : CursorSafe batchSize tr s where
  forward i hi s' hstep := by
    obtain ⟨past, t, t', hpast, ⟨rfl, -⟩, hpre⟩ := h.of_mem hi
    have hsound := Polls.sound hpast hlimit fun j hj =>
      hk j (hpre.subset (List.mem_append_left _ hj))
    exact hsound.forward (Indexer.moves_of_next hstep)
  saved c hc e he hlt hle := (h.sound hlimit hk).saved e he hle c hc hlt
  last c hc e he hlt hle := (h.sound hlimit hk).last hc he hlt hle

/-! ### Two runs -/

/-- The event whose handler completes in a step, if one does. -/
def Tick.completed (i : Tick) : Option ℕ :=
  match i.action, i.before.phase with
  | .process now failure, .batch (e :: _) _ =>
    if (i.before.db.process now failure e.event).2 then some e.id else none
  | _, _ => none

theorem Tick.completed_of_completes {i : Tick} {e : LogEntry} (h : i.Completes e) :
    i.completed = some e.id := by
  obtain ⟨now, failure, rest, full, haction, hphase, hdone⟩ := h
  simp only [completed, haction, hphase, hdone, if_true]

/-- Take a step. -/
def Indexer.play (batchSize : ℕ) (s : Indexer) (action : Action) : Option (Tick × Indexer) :=
  (s.next batchSize action).map fun s' => (⟨s, action⟩, s')

/-- **Runs by evaluation**: whatever is read off a replay is read off a run. -/
theorem exists_polls_of_replay {α : Type} {s : Indexer} (hs : s.Start) {script : List Action}
    {f : List Tick × Indexer → α} {v : α}
    (h : (History.replay (Indexer.play batchSize) s script).map f = some v) :
    ∃ tr s', Polls batchSize tr s' ∧ f (tr, s') = v := by
  refine History.exists_of_replay (fun t action i t' hplay => ?_) hs h
  obtain ⟨t'', hnext, heq⟩ := Option.map_eq_some_iff.mp hplay
  cases heq
  exact ⟨rfl, hnext⟩

namespace Stage

/-- An indexer with a saved cursor, at a node without events. -/
def indexer : Indexer where
  node := ⟨100, []⟩
  lastLedger := 0
  phase := .idle
  db := { Database.blank with cursor := 100 }
  origin := some 100

theorem start_indexer : indexer.Start :=
  ⟨rfl, rfl, List.Pairwise.nil, fun _ he => absurd he List.not_mem_nil, le_refl _, rfl⟩

/-- The event of an auction whose deadline was extended. -/
def extended (id auctionId ledger : ℕ) : LogEntry :=
  ⟨id, ledger, [.string "auc_ext", .bigint auctionId, .bigint 30], .null, none⟩

/-- The process finds its cursor, and two ledgers close. Then the events are read in pages of
three, the first of which ends within the second ledger. -/
def twoPages : List Action :=
  [.poll, .returns true, .close [extended 1 1 101, extended 2 2 101],
    .close [extended 3 1 102, extended 4 2 102], .poll, .returns true, .process 0 none,
    .process 0 none, .process 0 none, .endBatch, .returns true, .process 0 none,
    .process 0 none, .endBatch, .returns true]

/-- The process finds its cursor, and a ledger closes with an event in it. The database fails
when the event is to be stored. -/
def failure : List Action :=
  [.poll, .returns true, .close [extended 1 1 101], .poll, .returns true, .process 0 (some 0),
    .endBatch, .returns true]

end Stage

/-- The theorem at a page that ends within a ledger: its last event is handled twice. -/
theorem cursorSafe_twoPages : ∃ tr s, Polls 3 tr s ∧ (∀ i ∈ tr, i.KeepsCursor) ∧
    tr.filterMap Tick.completed = [1, 2, 3, 3, 4] ∧ s.db.cursor = 102 ∧ CursorSafe 3 tr s := by
  have hreplay : (History.replay (Indexer.play 3) Stage.indexer Stage.twoPages).map (fun r =>
      (decide (∀ i ∈ r.1, i.KeepsCursor), r.1.filterMap Tick.completed, r.2.db.cursor)) =
      some (true, [1, 2, 3, 3, 4], 102) := by decide +kernel
  obtain ⟨tr, s, hrun, hv⟩ := exists_polls_of_replay Stage.start_indexer hreplay
  obtain ⟨hkeeps, hv⟩ := Prod.mk.inj hv
  obtain ⟨hdone, hcursor⟩ := Prod.mk.inj hv
  have hkeeps := of_decide_eq_true hkeeps
  exact ⟨tr, s, hrun, hkeeps, hdone, hcursor, hrun.cursorSafe (by decide) hkeeps⟩

/-- **A failed handler is passed over.** -/
theorem exists_skipped : ¬∀ batchSize tr s, 1 ≤ batchSize → Polls batchSize tr s →
    CursorSafe batchSize tr s := by
  intro hclaim
  have hreplay : (History.replay (Indexer.play 3) Stage.indexer Stage.failure).map (fun r =>
      (r.1.filterMap Tick.completed, r.2.origin, r.2.db.cursor,
        r.2.node.entries.map fun e => e.ledger)) = some ([], some 100, 101, [101]) := by
    decide +kernel
  obtain ⟨tr, s, hrun, hv⟩ := exists_polls_of_replay Stage.start_indexer hreplay
  obtain ⟨hnone, hv⟩ := Prod.mk.inj hv
  obtain ⟨horigin, hv⟩ := Prod.mk.inj hv
  obtain ⟨hcursor, hledgers⟩ := Prod.mk.inj hv
  have hmem : 101 ∈ s.node.entries.map fun e => e.ledger := by
    rw [hledgers]
    exact List.mem_singleton_self _
  obtain ⟨e, he, hledger⟩ := List.mem_map.mp hmem
  obtain ⟨i, hi, hdone⟩ := (hclaim 3 tr s (by decide) hrun).saved 100 horigin e he (by omega)
    (hledger.le.trans hcursor.ge)
  have hsome : e.id ∈ tr.filterMap Tick.completed :=
    List.mem_filterMap.mpr ⟨i, hi, Tick.completed_of_completes hdone⟩
  rw [hnone] at hsome
  exact absurd hsome List.not_mem_nil

end UrithiBidz
