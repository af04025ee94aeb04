import UrithiBidz.Library.History

/-!
# Starting and stopping

The indexer polls in a loop that keeps itself going: a cycle that is over sets a timer, and the
timer starts the next one (`startIndexer`). To stop it, a flag is cleared, which the timer looks
at; a cycle in progress is not interrupted, and a timer that is set stays set. The flag also
keeps a second call of `startIndexer` from doing anything. Every call that does something has a
loop of its own, with a guard against cycles that overlap.

`UrithiBidz.Scheduler.next` says what a call, a timer and the end of a cycle do. How long a timer
takes is left open, and so is how long a cycle takes, and how it ends.
-/

namespace UrithiBidz

/-- A loop: its guard, its timers that have not fired, and its cycles in progress. -/
structure PollLoop where
  polling : Bool
  timers : ℕ
  running : ℕ

namespace PollLoop

/-- `poll`, up to where it waits for `pollEvents`. -/
def poll (isRunning : Bool) (l : PollLoop) : PollLoop :=
  if ¬isRunning then l
  else if l.polling then { l with timers := l.timers + 1 }
  else { l with polling := true, running := l.running + 1 }

/-- One of its timers fires. -/
def fire (isRunning : Bool) (l : PollLoop) : PollLoop :=
  poll isRunning { l with timers := l.timers - 1 }

/-- `pollEvents` is over, well or badly. -/
def settle (l : PollLoop) : PollLoop :=
  { l with polling := false, timers := l.timers + 1, running := l.running - 1 }

/-- How much is going on in the loop. -/
def activity (l : PollLoop) : ℕ := l.timers + l.running

/-- The loop goes on: a timer is set, or a cycle is in progress. -/
def Live (l : PollLoop) : Prop := 0 < l.activity

instance (l : PollLoop) : Decidable l.Live := inferInstanceAs (Decidable (0 < l.activity))

/-- A loop that has just been started. -/
def started : PollLoop := poll true ⟨false, 0, 0⟩

end PollLoop

/-- The flag, and all loops that were started, in their order. -/
structure Scheduler where
  isRunning : Bool
  loops : List PollLoop

/-- The scheduler before it is first started. -/
def Scheduler.initial : Scheduler := ⟨false, []⟩

/-- What happens: one of the two calls is made, a timer of a loop fires, or a cycle of it is
over. -/
inductive SchedulerEvent
  | start
  | stop
  | fires (n : ℕ)
  | settles (n : ℕ)
  deriving DecidableEq

namespace Scheduler

/-- **What an event does**, if it can happen. -/
def next (s : Scheduler) : SchedulerEvent → Option Scheduler
  | .start => if s.isRunning then some s else some ⟨true, s.loops ++ [.started]⟩
  | .stop => some { s with isRunning := false }
  | .fires n =>
    match s.loops[n]? with
    | some l => if 0 < l.timers then some { s with loops := s.loops.set n (l.fire s.isRunning) }
      else none
    | none => none
  | .settles n =>
    match s.loops[n]? with
    | some l => if 0 < l.running then some { s with loops := s.loops.set n l.settle } else none
    | none => none

/-- **What an event does**, case by case. -/
inductive Moves (s : Scheduler) : SchedulerEvent → Scheduler → Prop
  | already (hrunning : s.isRunning = true) : Moves s .start s
  | started (hrunning : s.isRunning = false) : Moves s .start ⟨true, s.loops ++ [.started]⟩
  | stopped : Moves s .stop { s with isRunning := false }
  | fired {before later : List PollLoop} {l : PollLoop} {n : ℕ}
      (hloops : s.loops = before ++ l :: later) (htimer : 0 < l.timers) :
    Moves s (.fires n) { s with loops := before ++ l.fire s.isRunning :: later }
  | settled {before later : List PollLoop} {l : PollLoop} {n : ℕ}
      (hloops : s.loops = before ++ l :: later) (hcycle : 0 < l.running) :
    Moves s (.settles n) { s with loops := before ++ l.settle :: later }

variable {s s' : Scheduler}

theorem set_of_getElem? {α : Type} {xs : List α} {n : ℕ} {x : α} (h : xs[n]? = some x) (y : α) :
    ∃ before later, xs = before ++ x :: later ∧ xs.set n y = before ++ y :: later := by
  obtain ⟨hlt, rfl⟩ := List.getElem?_eq_some_iff.mp h
  refine ⟨xs.take n, xs.drop (n + 1), ?_, ?_⟩
  · rw [← List.drop_eq_getElem_cons hlt, List.take_append_drop]
  · rw [List.set_eq_take_append_cons_drop, if_pos hlt]

theorem moves_of_next {event : SchedulerEvent} (h : s.next event = some s') :
    Moves s event s' := by
  rcases event with _ | _ | n | n
  · rcases hrunning : s.isRunning with _ | _
    · rw [next, if_neg (by simp [hrunning])] at h
      cases h
      exact .started hrunning
    · rw [next, if_pos hrunning] at h
      cases h
      exact .already hrunning
  · cases h
    exact .stopped
  · simp only [next] at h
    split at h
    · next l hl =>
      split at h
      · next htimer =>
        cases h
        -- the loop that wakes up is one of the list, and the others stay
        obtain ⟨before, later, hloops, hset⟩ := set_of_getElem? hl (l.fire s.isRunning)
        rw [hset]
        exact .fired hloops htimer
      · cases h
    · cases h
  · simp only [next] at h
    split at h
    · next l hl =>
      split at h
      · next hcycle =>
        cases h
        obtain ⟨before, later, hloops, hset⟩ := set_of_getElem? hl l.settle
        rw [hset]
        exact .settled hloops hcycle
      · cases h
    · cases h

end Scheduler

/-! ### Runs -/

/-- An event, with the state before it. -/
structure SchedulerTick where
  before : Scheduler
  event : SchedulerEvent

/-- **The runs of the scheduler.** -/
abbrev SchedulerRun : List SchedulerTick → Scheduler → Prop :=
  History (fun s => s = .initial) fun s i s' => i.before = s ∧ s.next i.event = some s'

/-- Let an event happen, if it can happen now. -/
def Scheduler.play (s : Scheduler) (event : SchedulerEvent) :
    Option (SchedulerTick × Scheduler) :=
  (s.next event).map fun s' => (⟨s, event⟩, s')

theorem Scheduler.play_eq_some {s s' : Scheduler} {event : SchedulerEvent} {i : SchedulerTick}
    (h : s.play event = some (i, s')) :
    (i.before = s ∧ s.next i.event = some s') ∧ i.event = event := by
  obtain ⟨s₁, hnext, heq⟩ := Option.map_eq_some_iff.mp h
  cases heq
  exact ⟨⟨rfl, hnext⟩, rfl⟩

/-- **Runs by evaluation**: whatever is read off a script of events is read off a run. -/
theorem SchedulerRun.exists_of_play {γ : Type} {script : List SchedulerEvent}
    {f : List SchedulerTick × Scheduler → γ} {v : γ}
    (h : (History.replay Scheduler.play .initial script).map f = some v) :
    ∃ tr s, SchedulerRun tr s ∧ tr.map (·.event) = script ∧ f (tr, s) = v := by
  obtain ⟨⟨tr, s⟩, hreplay, hv⟩ := Option.map_eq_some_iff.mp h
  have hstart : SchedulerRun [] .initial := .start rfl
  have hstep : ∀ s event i s', Scheduler.play s event = some (i, s') →
      i.before = s ∧ s.next i.event = some s' := fun s event i s' hplay =>
    (Scheduler.play_eq_some hplay).1
  exact ⟨tr, s, History.of_replay hstep hstart hreplay,
    History.map_of_replay (fun s event i s' hplay => (Scheduler.play_eq_some hplay).2) hreplay, hv⟩

end UrithiBidz
