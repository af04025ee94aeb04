import Mathlib.Data.List.Induction
import UrithiBidz.Library.SlidingWindow

/-!
# Fixed windows

A limiter may count by windows that do not slide. The first time opens a window of some length, and
until it ends at most a number of times pass; the first one after that opens the next window
(`FixedWindow.admits`, `FixedWindow.after`). All times are counted, and those that do not pass
leave the window as it is.

Where two windows meet, twice the number may pass in no time at all. It is not more than that, in a
window of the same length that ends anywhere (`FixedWindow.bounded`): such a window meets at most
two of the limiter's own.
-/

namespace FixedWindow

variable {α : Type} [AddCommGroup α] [LinearOrder α]

/-- A window: how many times have passed in it, and when it ends. -/
@[ext] structure Window (α : Type) where
  count : ℕ
  reset : α

/-- Whether the window is still open. -/
def isOpen (now : α) : Option (Window α) → Bool
  | some window => now < window.reset
  | none => false

/-- Whether a time passes. -/
def admits (max : ℕ) (now : α) : Option (Window α) → Bool
  | some window => !(now < window.reset) || window.count < max
  | none => true

/-- What becomes of the window at a time. -/
def next (max : ℕ) (length now : α) : Option (Window α) → Window α
  | some window =>
    if now < window.reset then
      if window.count < max then { window with count := window.count + 1 } else window
    else ⟨1, now + length⟩
  | none => ⟨1, now + length⟩

/-- What some times do, in their order: which of them pass, and the window after them. -/
def run (max : ℕ) (length : α) (times : List α) : List α × Option (Window α) :=
  times.foldl (fun s now => (s.1 ++ if admits max now s.2 then [now] else [],
    some (next max length now s.2))) ([], none)

/-- The times that pass. -/
def passes (max : ℕ) (length : α) (times : List α) : List α := (run max length times).1

/-- The window after some times. -/
def after (max : ℕ) (length : α) (times : List α) : Option (Window α) := (run max length times).2

theorem passes_concat (max : ℕ) (length : α) (times : List α) (now : α) :
    passes max length (times ++ [now]) = passes max length times ++
      if admits max now (after max length times) then [now] else [] := by
  rw [passes, run, List.foldl_append]
  rfl

theorem after_concat (max : ℕ) (length : α) (times : List α) (now : α) :
    after max length (times ++ [now]) = some (next max length now (after max length times)) := by
  rw [after, run, List.foldl_append]
  rfl

variable {max : ℕ} {length now : α} {window : Option (Window α)}

theorem after_eq_none_iff {times : List α} : after max length times = none ↔ times = [] := by
  rcases List.eq_nil_or_concat' times with rfl | ⟨times, now, rfl⟩
  · exact iff_of_true rfl rfl
  · rw [after_concat]
    exact iff_of_false (Option.some_ne_none _) (List.append_ne_nil_of_right_ne_nil _ (by simp))

omit [AddCommGroup α] in
theorem admits_of_ended (h : isOpen now window = false) : admits max now window = true := by
  rcases window with _ | window
  · rfl
  · simp only [isOpen, decide_eq_false_iff_not] at h
    simp [admits, h]

theorem next_of_ended (h : isOpen now window = false) :
    next max length now window = ⟨1, now + length⟩ := by
  rcases window with _ | window
  · rfl
  · simp only [isOpen, decide_eq_false_iff_not] at h
    rw [next, if_neg h]

theorem next_of_refused (h : admits max now window = false) (length : α) :
    some (next max length now window) = window := by
  rcases window with _ | window
  · cases h
  · simp only [admits, Bool.or_eq_false_iff, Bool.not_eq_false', decide_eq_true_eq,
      decide_eq_false_iff_not] at h
    rw [next, if_pos h.1, if_neg h.2]

theorem reset_next (max : ℕ) (length now : α) (window : Option (Window α)) :
    (next max length now window).reset = now + length ∨
      ∃ w, window = some w ∧ (next max length now window).reset = w.reset := by
  rcases window with _ | w
  · exact Or.inl rfl
  · simp only [next]
    by_cases hopen : now < w.reset
    · rw [if_pos hopen]
      refine Or.inr ⟨w, rfl, ?_⟩
      split <;> rfl
    · rw [if_neg hopen]
      exact Or.inl rfl

theorem ended_mono [IsOrderedAddMonoid α] {later : α} (h : isOpen now window = false)
    (hlater : now ≤ later) : isOpen later window = false := by
  rcases window with _ | window
  · rfl
  · simp only [isOpen, decide_eq_false_iff_not, not_lt] at h ⊢
    exact h.trans hlater

/-! ### What passes -/

theorem passes_subset (max : ℕ) (length : α) (times : List α) :
    passes max length times ⊆ times := by
  induction times using List.reverseRecOn with
  | nil => exact List.Subset.refl []
  | append_singleton times now ih =>
    rw [passes_concat]
    refine List.append_subset.mpr ⟨List.subset_append_of_subset_left _ ih, ?_⟩
    split
    · exact List.subset_append_right _ _
    · exact List.nil_subset _

/-- **The windows of what has passed** until some time: those before the last but one, the last but
one, and the last, which is the one that is kept. -/
structure Parts (max : ℕ) (length last : α) (window : Window α)
    (older previous current : List α) : Prop where
  older_le : ∀ t ∈ older, t + length + length ≤ window.reset
  previous_le : ∀ t ∈ previous, t + length ≤ window.reset
  previous_few : previous.length ≤ max
  current_count : current.length = window.count
  count_le : window.count ≤ max
  started : window.reset ≤ last + length

variable [IsOrderedAddMonoid α]

/-- **What has passed falls into windows.** -/
theorem exists_parts (hmax : 0 < max) (hlength : 0 ≤ length) {times : List α}
    (hsorted : times.Pairwise (· ≤ ·)) {last : α} (hlast : ∀ t ∈ times, t ≤ last)
    {window : Window α} (hwindow : after max length times = some window) :
    ∃ older previous current, passes max length times = older ++ previous ++ current ∧
      Parts max length last window older previous current := by
  induction times using List.reverseRecOn generalizing last window with
  | nil => cases hwindow
  | append_singleton times now ih =>
    obtain ⟨hsorted, -, hnow⟩ := List.pairwise_append.mp hsorted
    simp only [List.mem_singleton, forall_eq] at hnow
    have hlate : now ≤ last := hlast now (by simp)
    rw [after_concat] at hwindow
    obtain rfl := Option.some.inj hwindow
    rw [passes_concat]
    rcases hopen : isOpen now (after max length times) with _ | _
    · -- the next window is opened
      rw [admits_of_ended hopen, next_of_ended hopen, if_pos rfl]
      rcases hold : after max length times with _ | window
      · obtain rfl := after_eq_none_iff.mp hold
        refine ⟨[], [], [now], rfl, ?_⟩
        exact ⟨by simp, by simp, Nat.zero_le _, rfl, hmax, add_le_add_left hlate length⟩
      · obtain ⟨older, previous, current, heq, hparts⟩ := ih hsorted hnow hold
        rw [hold, isOpen, decide_eq_false_iff_not, not_lt] at hopen
        refine ⟨older ++ previous, current, [now], by rw [heq, List.append_assoc older], ?_⟩
        refine ⟨fun t ht => ?_, fun t ht => ?_, ?_, rfl, hmax, add_le_add_left hlate length⟩
        · refine add_le_add_left ?_ length
          rcases List.mem_append.mp ht with ht | ht
          · exact (le_add_of_nonneg_right hlength).trans ((hparts.older_le t ht).trans hopen)
          · exact (hparts.previous_le t ht).trans hopen
        · refine add_le_add_left (hnow t (passes_subset max length times ?_)) length
          rw [heq]
          exact List.mem_append_right _ ht
        · exact hparts.current_count.le.trans hparts.count_le
    · -- the window is still open, and counts the time if there is room
      obtain ⟨window, hold⟩ : ∃ window, after max length times = some window := by
        rcases hold : after max length times with _ | window
        · rw [hold] at hopen
          cases hopen
        · exact ⟨window, rfl⟩
      obtain ⟨older, previous, current, heq, hparts⟩ := ih hsorted hnow hold
      have hstarted := hparts.started.trans (add_le_add_left hlate length)
      rw [hold, isOpen, decide_eq_true_eq] at hopen
      rw [hold, heq]
      by_cases hfew : window.count < max
      · refine ⟨older, previous, current ++ [now], ?_, ?_⟩
        · simp [admits, hfew]
        · rw [next, if_pos hopen, if_pos hfew]
          refine { hparts with
            current_count := ?_
            count_le := hfew
            started := hstarted }
          rw [List.length_append, hparts.current_count]
          rfl
      · refine ⟨older, previous, current, ?_, ?_⟩
        · simp [admits, hfew, hopen]
        · rw [next, if_pos hopen, if_neg hfew]
          exact { hparts with started := hstarted }

/-- **No window has more than twice the number**, wherever it ends. -/
theorem bounded (hmax : 0 < max) (hlength : 0 ≤ length) {times : List α}
    (hsorted : times.Pairwise (· ≤ ·)) :
    SlidingWindow.Bounded length (2 * max) (passes max length times) := by
  induction times using List.reverseRecOn with
  | nil => exact .nil _ _
  | append_singleton times now ih =>
    obtain ⟨hsorted, -, hnow⟩ := List.pairwise_append.mp hsorted
    simp only [List.mem_singleton, forall_eq] at hnow
    rw [passes_concat]
    split
    · next hadmits =>
      refine (ih hsorted).concat ?_
      rcases hold : after max length times with _ | window
      · obtain rfl := after_eq_none_iff.mp hold
        exact Nat.mul_pos Nat.two_pos hmax
      · obtain ⟨older, previous, current, heq, hparts⟩ :=
          exists_parts hmax hlength hsorted hnow hold
        have hcurrent := (SlidingWindow.length_recent length now current).trans
          hparts.current_count.le
        have hprevious := (SlidingWindow.length_recent length now previous).trans
          hparts.previous_few
        have hle := hparts.count_le
        rw [heq, SlidingWindow.recent_append, SlidingWindow.recent_append]
        -- an open window has room for one more, a new one leaves two windows behind
        by_cases hopen : now < window.reset
        · have holder : SlidingWindow.recent length now older = [] :=
            SlidingWindow.recent_eq_nil fun t ht => le_of_add_le_add_right
              ((hparts.older_le t ht).trans hparts.started)
          have hfew : window.count < max := by simpa [admits, hold, hopen] using hadmits
          rw [holder, List.nil_append, List.length_append]
          omega
        · rw [not_lt] at hopen
          have holder : SlidingWindow.recent length now older = [] :=
            SlidingWindow.recent_eq_nil fun t ht =>
              (le_add_of_nonneg_right hlength).trans ((hparts.older_le t ht).trans hopen)
          have hgone : SlidingWindow.recent length now previous = [] :=
            SlidingWindow.recent_eq_nil fun t ht => (hparts.previous_le t ht).trans hopen
          rw [holder, hgone, List.nil_append, List.nil_append]
          omega
    · rw [List.append_nil]
      exact ih hsorted

end FixedWindow
