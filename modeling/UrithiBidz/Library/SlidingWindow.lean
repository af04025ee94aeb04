import Mathlib.Algebra.Order.Group.Defs
import Mathlib.Algebra.Order.Sub.Basic
import Mathlib.Data.List.Basic
import Mathlib.Order.Lattice

/-!
# Sliding windows

A limiter lets something happen at a time only if it has not happened too often in a window
of some length that ends at this time. `SlidingWindow.recent` is what of a list of times is
in such a window. If every time was added while fewer than a bound were recent, no window of
this length, wherever it ends, has more than the bound (`SlidingWindow.Bounded.concat`).
-/

namespace SlidingWindow

variable {α : Type} [AddCommGroup α] [LinearOrder α]

/-- The times that are less than the length of the window ago. -/
def recent (window now : α) (times : List α) : List α :=
  times.filter fun t => now - t < window

/-- **No window has more than a number of times**, wherever it ends. -/
def Bounded (window : α) (bound : ℕ) (times : List α) : Prop :=
  ∀ now, ((recent window now times).filter fun t => t ≤ now).length ≤ bound

theorem Bounded.nil (window : α) (bound : ℕ) : Bounded window bound [] := fun _ =>
  Nat.zero_le bound

variable [IsOrderedAddMonoid α] {window : α} {bound : ℕ} {times : List α}

theorem length_recent_le {now later : α} (h : now ≤ later) :
    ((recent window later times).filter fun t => t ≤ later).length ≤
      (recent window now times).length := by
  have hsub : (recent window later times).Sublist (recent window now times) := by
    refine List.monotone_filter_right times fun t ht => ?_
    rw [decide_eq_true_eq] at ht ⊢
    exact (sub_le_sub_right h t).trans_lt ht
  exact (List.filter_sublist.trans hsub).length_le

theorem recent_recent {now later : α} (h : now ≤ later) :
    recent window later (recent window now times) = recent window later times := by
  unfold recent
  rw [List.filter_filter]
  refine List.filter_congr fun t _ => ?_
  by_cases hlater : later - t < window
  · rw [decide_eq_true hlater, decide_eq_true ((sub_le_sub_right h t).trans_lt hlater)]
    rfl
  · rw [decide_eq_false hlater, Bool.false_and]

omit [IsOrderedAddMonoid α] in
theorem recent_append (now : α) (times times' : List α) :
    recent window now (times ++ times') = recent window now times ++ recent window now times' :=
  List.filter_append ..

omit [IsOrderedAddMonoid α] in
theorem length_recent (window now : α) (times : List α) :
    (recent window now times).length ≤ times.length := List.length_filter_le ..

theorem recent_eq_nil {now : α} (h : ∀ t ∈ times, t + window ≤ now) :
    recent window now times = [] := by
  refine List.filter_eq_nil_iff.mpr fun t ht => ?_
  rw [decide_eq_true_eq, sub_lt_iff_lt_add']
  exact (h t ht).not_gt

/-- **One more time**, while fewer than the bound are recent. -/
theorem Bounded.concat (h : Bounded window bound times) {now : α}
    (hfew : (recent window now times).length < bound) : Bounded window bound (times ++ [now]) := by
  intro later
  rw [recent, List.filter_append, List.filter_append, List.length_append]
  by_cases hin : later - now < window ∧ now ≤ later
  · have hle : ((recent window later times).filter fun t => t ≤ later).length ≤
        (recent window now times).length := length_recent_le hin.2
    have hone : (([now].filter fun t => later - t < window).filter fun t => t ≤ later).length ≤ 1 :=
      (List.filter_sublist.trans List.filter_sublist).length_le
    rw [recent] at hle
    omega
  · have hnone : ([now].filter fun t => later - t < window).filter (fun t => t ≤ later) = [] := by
      rw [List.filter_filter, List.filter_eq_nil_iff]
      intro t ht hboth
      rw [List.mem_singleton.mp ht, Bool.and_eq_true, decide_eq_true_eq, decide_eq_true_eq] at hboth
      exact hin ⟨hboth.2, hboth.1⟩
    rw [hnone]
    exact h later

end SlidingWindow
