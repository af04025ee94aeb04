import Mathlib
import UrithiBidz.Indexer.Scheduler

/-!
# One loop at a time

Two cycles at the same time would both read and advance the cursor of the indexer, so there must be
only one loop. Within a loop the cycles do not overlap: there is a timer, or a cycle, or nothing
(`UrithiBidz.PollLoop.Tidy`), so the guard of the loop is never in the way. But the guard belongs
to the loop, and the flag is all that two loops share. If the indexer is started again before the
timer of the old loop has fired, the old loop goes on beside the new one, and both of them poll
(`UrithiBidz.exists_two_polls`). There is only one loop exactly if it is never started while
another one is still live (`UrithiBidz.SchedulerRun.single_iff`); so there is if the indexer is
never stopped (`UrithiBidz.SchedulerRun.single_of_unstopped`).
-/

namespace UrithiBidz

/-! ### Within a loop -/

/-- **A loop does one thing at a time**, and its guard is up during a cycle. -/
structure PollLoop.Tidy (l : PollLoop) : Prop where
  activity_le : l.activity ≤ 1
  guarded : l.polling = true ↔ 0 < l.running

namespace PollLoop

variable {l : PollLoop} {isRunning : Bool}

theorem tidy_started : started.Tidy := ⟨le_refl 1, iff_of_true rfl Nat.one_pos⟩

/-- When a timer of a loop fires, no cycle of it is in progress. -/
theorem Tidy.not_polling (h : l.Tidy) (htimer : 0 < l.timers) : l.polling = false := by
  have hle := h.activity_le
  unfold activity at hle
  rw [← Bool.not_eq_true, h.guarded]
  omega

/-- **A timer that fires starts a cycle**, or it was the last one. -/
theorem fire_cases (h : l.Tidy) (htimer : 0 < l.timers) : l.fire isRunning =
    if isRunning then ⟨true, 0, 1⟩ else ⟨false, 0, 0⟩ := by
  have hle := h.activity_le
  have hpolling := h.not_polling htimer
  obtain ⟨polling, timers, running⟩ := l
  simp only [activity] at hle htimer hpolling
  obtain rfl : timers = 1 := by omega
  obtain rfl : running = 0 := by omega
  subst hpolling
  cases isRunning <;> rfl

/-- **A cycle that is over sets a timer.** -/
theorem settle_eq (h : l.Tidy) (hcycle : 0 < l.running) : l.settle = ⟨false, 1, 0⟩ := by
  have hle := h.activity_le
  obtain ⟨polling, timers, running⟩ := l
  simp only [activity] at hle hcycle
  obtain rfl : timers = 0 := by omega
  obtain rfl : running = 1 := by omega
  rfl

theorem Tidy.fire (h : l.Tidy) (htimer : 0 < l.timers) : (l.fire isRunning).Tidy := by
  rw [fire_cases h htimer]
  split
  · exact ⟨le_refl 1, by simp⟩
  · exact ⟨Nat.zero_le 1, by simp⟩

theorem Tidy.settle (h : l.Tidy) (hcycle : 0 < l.running) : l.settle.Tidy := by
  rw [settle_eq h hcycle]
  exact ⟨le_refl 1, by simp⟩

variable (isRunning) in
theorem activity_fire_le (h : l.Tidy) (htimer : 0 < l.timers) :
    (l.fire isRunning).activity ≤ l.activity := by
  have hone : 1 ≤ l.activity := htimer.trans_le (Nat.le_add_right _ _)
  rw [fire_cases h htimer]
  split
  · exact hone
  · exact Nat.zero_le _

theorem activity_settle_le (h : l.Tidy) (hcycle : 0 < l.running) :
    l.settle.activity ≤ l.activity := by
  rw [settle_eq h hcycle]
  exact hcycle.trans_le (Nat.le_add_left _ _)

end PollLoop

/-! ### All loops -/

namespace Scheduler

/-- **There is one loop, and one cycle**: at most one loop goes on, and at most one `pollEvents` is
in progress. -/
structure Single (s : Scheduler) : Prop where
  oneLoop : (s.loops.filter (·.Live)).length ≤ 1
  onePoll : (s.loops.map (·.running)).sum ≤ 1

/-- How much is going on in all loops. -/
def activity (s : Scheduler) : ℕ := (s.loops.map (·.activity)).sum

variable {s s' : Scheduler}

/-- The loops that go on are no more than what is going on, and so are the cycles. -/
theorem length_filter_le_activity (s : Scheduler) :
    (s.loops.filter (·.Live)).length ≤ s.activity := by
  unfold activity
  induction s.loops with
  | nil => exact le_refl 0
  | cons l loops ih =>
    rw [List.map_cons, List.sum_cons]
    by_cases hlive : l.Live
    · have hone : 1 ≤ l.activity := hlive
      rw [List.filter_cons_of_pos (by simpa using hlive), List.length_cons]
      omega
    · rw [List.filter_cons_of_neg (by simpa using hlive)]
      omega

theorem sum_running_le_activity (s : Scheduler) :
    (s.loops.map (·.running)).sum ≤ s.activity :=
  List.sum_le_sum fun l _ => Nat.le_add_left l.running l.timers

/-- There is one loop if no more than one thing is going on. -/
theorem single_of_activity (h : s.activity ≤ 1) : s.Single :=
  ⟨(length_filter_le_activity s).trans h, (sum_running_le_activity s).trans h⟩

/-- **A loop that is started comes to those that go on.** -/
theorem not_single_of_live {loops : List PollLoop} {isRunning : Bool}
    (h : ∃ l ∈ loops, l.Live) : ¬Single ⟨isRunning, loops ++ [.started]⟩ := by
  obtain ⟨l, hmem, hlive⟩ := h
  rintro ⟨hle, -⟩
  have hpos : 0 < (loops.filter (·.Live)).length :=
    List.length_pos_of_mem (List.mem_filter.mpr ⟨hmem, decide_eq_true hlive⟩)
  have hone : ([PollLoop.started].filter (·.Live)).length = 1 := rfl
  rw [List.filter_append, List.length_append, hone] at hle
  omega

theorem activity_eq_zero (h : ∀ l ∈ s.loops, ¬l.Live) : s.activity = 0 := by
  refine List.sum_eq_zero fun n hn => ?_
  obtain ⟨l, hl, rfl⟩ := List.mem_map.mp hn
  exact Nat.eq_zero_of_not_pos (h l hl)

theorem activity_split {before later : List PollLoop} {l : PollLoop}
    (h : s.loops = before ++ l :: later) : s.activity =
      (before.map (·.activity)).sum + (l.activity + (later.map (·.activity)).sum) := by
  rw [activity, h, List.map_append, List.sum_append, List.map_cons, List.sum_cons]

end Scheduler

/-! ### Runs -/

variable {tr : List SchedulerTick} {s s' : Scheduler} {i : SchedulerTick}

/-- The indexer is started, and was not running. -/
def SchedulerTick.Starts (i : SchedulerTick) : Prop :=
  i.event = .start ∧ i.before.isRunning = false

/-- No loop goes on any more. -/
def SchedulerTick.Quiet (i : SchedulerTick) : Prop := ∀ l ∈ i.before.loops, ¬l.Live

/-- **Every loop is tidy**, along every run. -/
theorem SchedulerRun.tidy (h : SchedulerRun tr s) : ∀ l ∈ s.loops, l.Tidy := by
  induction h with
  | start hs =>
    subst hs
    exact fun l hl => absurd hl List.not_mem_nil
  | @snoc tr s s' i h hs ih =>
    -- what becomes of one of the loops, while the others stay
    have hreplace : ∀ {before later : List PollLoop} {l l' : PollLoop},
        s.loops = before ++ l :: later → l'.Tidy → ∀ x ∈ before ++ l' :: later, x.Tidy := by
      intro before later l l' hloops hl' x hx
      rw [List.mem_append, List.mem_cons] at hx
      rcases hx with hx | rfl | hx
      · exact ih x (by rw [hloops]; exact List.mem_append_left _ hx)
      · exact hl'
      · exact ih x (by rw [hloops]; exact List.mem_append_right _ (List.mem_cons_of_mem l hx))
    have hat : ∀ {before later : List PollLoop} {l : PollLoop},
        s.loops = before ++ l :: later → l.Tidy := by
      intro before later l hloops
      exact ih l (by rw [hloops]; exact List.mem_append_right _ List.mem_cons_self)
    have hmoves := Scheduler.moves_of_next hs.2
    generalize i.event = event at hmoves
    cases hmoves with
    | already => exact ih
    | started =>
      intro l hl
      rcases List.mem_append.mp hl with hl | hl
      · exact ih l hl
      · rw [List.mem_singleton.mp hl]
        exact PollLoop.tidy_started
    | stopped => exact ih
    | fired hloops htimer => exact hreplace hloops ((hat hloops).fire htimer)
    | settled hloops hcycle => exact hreplace hloops ((hat hloops).settle hcycle)

/-- **More is going on only after a start.** -/
theorem SchedulerRun.activity_le (h : SchedulerRun tr s) (hbefore : i.before = s)
    (hnext : s.next i.event = some s') :
    s'.activity ≤ s.activity ∨ (i.Starts ∧ s'.activity = s.activity + 1) := by
  have hat : ∀ {before later : List PollLoop} {l : PollLoop},
      s.loops = before ++ l :: later → l.Tidy := by
    intro before later l hloops
    exact h.tidy l (by rw [hloops]; exact List.mem_append_right _ List.mem_cons_self)
  have hmoves := Scheduler.moves_of_next hnext
  generalize hevent : i.event = event at hmoves
  cases hmoves with
  | already => exact Or.inl (le_refl _)
  | started hrunning =>
    refine Or.inr ⟨⟨hevent, hbefore ▸ hrunning⟩, ?_⟩
    rw [Scheduler.activity, List.map_append, List.sum_append]
    rfl
  | stopped => exact Or.inl (le_refl _)
  | @fired before later l n hloops htimer =>
    have hle := PollLoop.activity_fire_le s.isRunning (hat hloops) htimer
    refine Or.inl ?_
    rw [Scheduler.activity_split hloops, Scheduler.activity_split rfl]
    omega
  | @settled before later l n hloops hcycle =>
    have hle := PollLoop.activity_settle_le (hat hloops) hcycle
    refine Or.inl ?_
    rw [Scheduler.activity_split hloops, Scheduler.activity_split rfl]
    omega

/-- **There is one loop** as long as it is never started while another one goes on. -/
theorem SchedulerRun.activity_le_one (h : SchedulerRun tr s)
    (hquiet : ∀ i ∈ tr, i.Starts → i.Quiet) : s.activity ≤ 1 := by
  induction h with
  | start hs =>
    subst hs
    exact Nat.zero_le 1
  | @snoc tr s s' i h hs ih =>
    obtain ⟨hbefore, hnext⟩ := hs
    have hpast := ih fun j hj => hquiet j (List.mem_append_left _ hj)
    rcases SchedulerRun.activity_le h hbefore hnext with hle | ⟨hstarts, hmore⟩
    · exact hle.trans hpast
    · have hlast := hquiet i (List.mem_append_right _ (List.mem_singleton_self i)) hstarts
      rw [SchedulerTick.Quiet, hbefore] at hlast
      rw [hmore, Scheduler.activity_eq_zero hlast]

/-- **There is only one loop, and only one cycle at a time**, in every state of a run, if and only
if the indexer is never started while a loop of an earlier start goes on. -/
theorem SchedulerRun.single_iff (h : SchedulerRun tr s) :
    (∀ past t, past <+: tr → SchedulerRun past t → t.Single) ↔ ∀ i ∈ tr, i.Starts → i.Quiet := by
  constructor
  · intro hsingle i hi hstarts l hl hlive
    obtain ⟨past, t, t', hpast, ⟨hbefore, hnext⟩, hpre⟩ := h.of_mem hi
    have hlong : SchedulerRun (past ++ [i]) t' := hpast.snoc ⟨hbefore, hnext⟩
    have hone := hsingle _ t' hpre hlong
    obtain ⟨hevent, hrunning⟩ := hstarts
    rw [hbefore] at hrunning hl
    rw [hevent] at hnext
    cases Scheduler.moves_of_next hnext with
    | already hrunning' => exact absurd (hrunning.symm.trans hrunning') Bool.false_ne_true
    | started => exact Scheduler.not_single_of_live ⟨l, hl, hlive⟩ hone
  · intro hquiet past t hpre hpast
    exact Scheduler.single_of_activity
      (hpast.activity_le_one fun i hi => hquiet i (hpre.subset hi))

/-- The indexer is started twice and stopped, and started again when all is quiet. -/
def Stage.restarting : List SchedulerEvent :=
  [.start, .start, .settles 0, .stop, .fires 0, .start]

/-- The theorem at these calls. -/
theorem single_iff_restarting : ∃ tr s, SchedulerRun tr s ∧
    tr.map (·.event) = Stage.restarting ∧ (∀ i ∈ tr, i.Starts → i.Quiet) ∧
      ∀ past t, past <+: tr → SchedulerRun past t → t.Single := by
  have hplay : (History.replay Scheduler.play .initial Stage.restarting).map (fun r =>
      r.1.all fun i => !(i.event = .start && i.before.isRunning = false) ||
        i.before.loops.all fun l => ¬l.Live) = some true := by decide +kernel
  obtain ⟨tr, s, hrun, hevents, hall⟩ := SchedulerRun.exists_of_play hplay
  have hquiet : ∀ i ∈ tr, i.Starts → i.Quiet := by
    intro i hi hstarts l hl
    have hi' := List.all_eq_true.mp hall i hi
    simp only [hstarts.1, hstarts.2] at hi'
    simpa using List.all_eq_true.mp hi' l hl
  exact ⟨tr, s, hrun, hevents, hquiet, (SchedulerRun.single_iff hrun).mpr hquiet⟩

/-- **Two loops that poll at the same time**: the indexer is stopped during a cycle, and started
again before it is over. -/
theorem exists_two_polls : ¬∀ tr s, SchedulerRun tr s → s.Single := by
  intro hclaim
  have hplay : (History.replay Scheduler.play .initial [.start, .stop, .start]).map
      (fun r => (r.2.loops.map (·.running)).sum) = some 2 := by decide +kernel
  obtain ⟨tr, s, hrun, -, hv⟩ := SchedulerRun.exists_of_play hplay
  have hone := (hclaim tr s hrun).onePoll
  rw [hv] at hone
  exact absurd hone (by decide)

/-- An indexer that does not run, and was not stopped, was not started. -/
theorem SchedulerRun.loops_eq_nil (h : SchedulerRun tr s) (hnever : ∀ i ∈ tr, i.event ≠ .stop)
    (hidle : s.isRunning = false) : s.loops = [] := by
  induction h with
  | start hs =>
    subst hs
    rfl
  | @snoc tr s s' i h hs ih =>
    have hpast := ih fun j hj => hnever j (List.mem_append_left _ hj)
    have hlast := hnever i (List.mem_append_right _ (List.mem_singleton_self i))
    have hmoves := Scheduler.moves_of_next hs.2
    generalize i.event = event at hmoves hlast
    cases hmoves with
    | already => exact hpast hidle
    | started => exact absurd hidle.symm Bool.false_ne_true
    | stopped => exact absurd rfl hlast
    | fired hloops =>
      have hnil := hpast hidle
      rw [hloops] at hnil
      exact absurd hnil (by simp)
    | settled hloops =>
      have hnil := hpast hidle
      rw [hloops] at hnil
      exact absurd hnil (by simp)

/-- **An indexer that is never stopped has one loop**, however often it is started. -/
theorem SchedulerRun.single_of_unstopped (h : SchedulerRun tr s)
    (hnever : ∀ i ∈ tr, i.event ≠ .stop) : s.Single := by
  refine Scheduler.single_of_activity (h.activity_le_one fun i hi hstarts l hl => ?_)
  obtain ⟨past, t, t', hpast, ⟨hbefore, hnext⟩, hpre⟩ := h.of_mem hi
  have hfirst := SchedulerRun.loops_eq_nil hpast
    (fun j hj => hnever j (hpre.subset (List.mem_append_left _ hj))) (hbefore ▸ hstarts.2)
  rw [hbefore, hfirst] at hl
  exact absurd hl List.not_mem_nil

end UrithiBidz
