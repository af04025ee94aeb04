import Mathlib.Algebra.BigOperators.Group.Finset.Piecewise
import Mathlib.Algebra.Order.BigOperators.Group.Finset
import Mathlib.Tactic.Abel

/-!
# Claims on a common fund

Many parties have claims on one fund: the claim of a holder `x` in an account `i` is `f i x`.
There may be infinitely many accounts and holders, only finitely many of them with a claim at
any time, and which ones they are is nobody's business. So the claims are *backed* by an
amount when every finite part of the table sums to at most that amount.

The rules are those of bookkeeping. A step that works on one account, raises one claim by
what comes into the fund, and raises no other, keeps the claims backed (`Backed.step`); the
same rule covers a payment, for a negative amount. And a claim can be paid without touching
what backs the claims in other accounts (`Backed.cell_add_le`).
-/

/-- The claims of a table are backed by an amount. -/
def Backed {α β M : Type} [AddCommMonoid M] [LE M] (f : α → β → M) (fund : M) : Prop :=
  ∀ (accounts : Finset α) (holders : Finset β), ∑ i ∈ accounts, ∑ x ∈ holders, f i x ≤ fund

namespace Backed

variable {α β M : Type} [AddCommGroup M] [PartialOrder M] [IsOrderedAddMonoid M]
  {f g : α → β → M} {fund : M}

omit [IsOrderedAddMonoid M] in
theorem of_eq_zero (h : ∀ i x, f i x = 0) (hfund : 0 ≤ fund) : Backed f fund := by
  intro accounts holders
  have hzero : ∑ i ∈ accounts, ∑ x ∈ holders, f i x = 0 :=
    Finset.sum_eq_zero fun i _ => Finset.sum_eq_zero fun x _ => h i x
  rw [hzero]
  exact hfund

theorem mono (h : Backed f fund) (hclaims : ∀ i x, g i x ≤ f i x) {fund' : M}
    (hfund : fund ≤ fund') : Backed g fund' := by
  intro accounts holders
  have hsum : ∑ i ∈ accounts, ∑ x ∈ holders, g i x ≤ ∑ i ∈ accounts, ∑ x ∈ holders, f i x :=
    Finset.sum_le_sum fun i _ => Finset.sum_le_sum fun x _ => hclaims i x
  exact hsum.trans ((h accounts holders).trans hfund)

theorem sum_le_sum_of_subset (hg : ∀ i x, 0 ≤ g i x) {accounts accounts' : Finset α}
    {holders holders' : Finset β} (ha : accounts ⊆ accounts') (hh : holders ⊆ holders') :
    ∑ i ∈ accounts, ∑ x ∈ holders, g i x ≤ ∑ i ∈ accounts', ∑ x ∈ holders', g i x := by
  have hrows : ∑ i ∈ accounts, ∑ x ∈ holders, g i x ≤
      ∑ i ∈ accounts, ∑ x ∈ holders', g i x :=
    Finset.sum_le_sum fun i _ =>
      Finset.sum_le_sum_of_subset_of_nonneg hh fun x _ _ => hg i x
  exact hrows.trans (Finset.sum_le_sum_of_subset_of_nonneg ha fun i _ _ =>
    Finset.sum_nonneg fun x _ => hg i x)

/-- In one account, one claim is raised by `n` and no other is raised. -/
theorem sum_row_le [DecidableEq β] {i : α} {x₀ : β} {n : M} {holders : Finset β}
    (hx₀ : x₀ ∈ holders) (hcell : ∀ x, g i x ≤ f i x + if x₀ = x then n else 0) :
    ∑ x ∈ holders, g i x ≤ ∑ x ∈ holders, f i x + n := by
  calc ∑ x ∈ holders, g i x
      ≤ ∑ x ∈ holders, (f i x + if x₀ = x then n else 0) :=
        Finset.sum_le_sum fun x _ => hcell x
    _ = ∑ x ∈ holders, f i x + n := by
        rw [Finset.sum_add_distrib, Finset.sum_ite_eq, if_pos hx₀]

/-- **A step on one account** that raises one claim by what comes into the fund, and no
other, keeps the claims backed. What comes in may be negative: then it is a payment. -/
theorem step [DecidableEq β] (h : Backed f fund) (hg : ∀ i x, 0 ≤ g i x) {i : α} {x₀ : β} {n : M}
    (hrow : ∀ j, j ≠ i → g j = f j) (hcell : ∀ x, g i x ≤ f i x + if x₀ = x then n else 0) :
    Backed g (fund + n) := by
  classical
  intro accounts holders
  -- it is enough to look at parts of the table with the cell in them
  have hi : i ∈ insert i accounts := Finset.mem_insert_self i accounts
  have hx₀ : x₀ ∈ insert x₀ holders := Finset.mem_insert_self x₀ holders
  refine (sum_le_sum_of_subset hg (Finset.subset_insert i accounts)
    (Finset.subset_insert x₀ holders)).trans ?_
  have hothers : ∑ j ∈ (insert i accounts).erase i, ∑ x ∈ insert x₀ holders, g j x =
      ∑ j ∈ (insert i accounts).erase i, ∑ x ∈ insert x₀ holders, f j x :=
    Finset.sum_congr rfl fun j hj => by rw [hrow j (Finset.ne_of_mem_erase hj)]
  have hbacked := h (insert i accounts) (insert x₀ holders)
  rw [← Finset.add_sum_erase _ _ hi] at hbacked ⊢
  rw [hothers]
  generalize ∑ j ∈ (insert i accounts).erase i, ∑ x ∈ insert x₀ holders, f j x = rest at *
  have hthis := sum_row_le hx₀ hcell
  calc ∑ x ∈ insert x₀ holders, g i x + rest
      ≤ (∑ x ∈ insert x₀ holders, f i x + n) + rest := by gcongr
    _ = (∑ x ∈ insert x₀ holders, f i x + rest) + n := by abel
    _ ≤ fund + n := by gcongr

/-- **A claim can be paid** without touching what backs the claims in other accounts. -/
theorem cell_add_le (h : Backed f fund) (hf : ∀ i x, 0 ≤ f i x) {i : α} (x₀ : β)
    {accounts : Finset α} (hi : i ∉ accounts) (holders : Finset β) :
    f i x₀ + ∑ j ∈ accounts, ∑ x ∈ holders, f j x ≤ fund := by
  classical
  have hbacked := h (insert i accounts) (insert x₀ holders)
  rw [Finset.sum_insert hi] at hbacked
  refine le_trans (add_le_add ?_ ?_) hbacked
  · exact Finset.single_le_sum (fun x _ => hf i x) (Finset.mem_insert_self x₀ holders)
  · exact sum_le_sum_of_subset hf (Finset.Subset.refl accounts) (Finset.subset_insert x₀ holders)

end Backed
