import Mathlib

/-!
# Integers of a fixed range

A machine integer is an integer together with the proof that it lies in the range
of its type. `Ranged lo hi` is that pair, for any two bounds, so the signed and the
unsigned types of every width are instances of one definition and share one set of
lemmas. Arithmetic is defined the way a systems language documents it: *saturating*
operations clamp to the nearest bound, *checked* ones answer `none` when the exact
result does not fit, *wrapping* ones reduce modulo the size of the range.

Everything is stated through the field `val`, the integer itself. A goal about ranged
integers becomes a goal about `ℤ` once `Ranged.le_iff` and its companions have
rewritten it, and the bounds of a value are always at hand as `Ranged.lo_le` and
`Ranged.le_hi`.
-/

/-- An integer between two bounds. -/
structure Ranged (lo hi : ℤ) where
  /-- The integer itself. -/
  val : ℤ
  /-- It is not below the lower bound. -/
  lo_le : lo ≤ val
  /-- It is not above the upper bound. -/
  le_hi : val ≤ hi
  deriving DecidableEq

namespace Ranged

variable {lo hi : ℤ}

@[ext] theorem ext {x y : Ranged lo hi} (h : x.val = y.val) : x = y := by
  cases x
  cases y
  simpa using h

/-- A literal of a ranged type: the bounds are checked by evaluation. -/
def of (n : ℤ) (h₁ : decide (lo ≤ n) = true := by exact Eq.refl true)
    (h₂ : decide (n ≤ hi) = true := by exact Eq.refl true) : Ranged lo hi :=
  ⟨n, of_decide_eq_true h₁, of_decide_eq_true h₂⟩

@[simp] theorem val_of (n : ℤ) (h₁ : decide (lo ≤ n) = true) (h₂ : decide (n ≤ hi) = true) :
    (of n h₁ h₂ : Ranged lo hi).val = n := rfl

/-! ### Order -/

instance : LE (Ranged lo hi) := ⟨fun x y => x.val ≤ y.val⟩

instance : LT (Ranged lo hi) := ⟨fun x y => x.val < y.val⟩

theorem le_iff {x y : Ranged lo hi} : x ≤ y ↔ x.val ≤ y.val := Iff.rfl

theorem lt_iff {x y : Ranged lo hi} : x < y ↔ x.val < y.val := Iff.rfl

instance (x y : Ranged lo hi) : Decidable (x ≤ y) := inferInstanceAs (Decidable (x.val ≤ y.val))

instance (x y : Ranged lo hi) : Decidable (x < y) := inferInstanceAs (Decidable (x.val < y.val))

instance : PartialOrder (Ranged lo hi) where
  le_refl x := Int.le_refl x.val
  le_trans _ _ _ h₁ h₂ := Int.le_trans h₁ h₂
  lt_iff_le_not_ge _ _ := Int.lt_iff_le_and_not_ge
  le_antisymm _ _ h₁ h₂ := ext (Int.le_antisymm h₁ h₂)

theorem not_lt_iff {x y : Ranged lo hi} : ¬x < y ↔ y ≤ x := by
  rw [lt_iff, le_iff, not_lt]

/-! ### Saturating arithmetic -/

/-- The value of the range nearest to `n`. -/
def clamp (h : lo ≤ hi) (n : ℤ) : Ranged lo hi :=
  ⟨max lo (min n hi), le_max_left _ _, max_le h (min_le_right _ _)⟩

theorem lo_le_hi (x : Ranged lo hi) : lo ≤ hi := x.lo_le.trans x.le_hi

/-- Addition that stops at the bounds. -/
def saturatingAdd (x y : Ranged lo hi) : Ranged lo hi := clamp x.lo_le_hi (x.val + y.val)

/-- Subtraction that stops at the bounds. -/
def saturatingSub (x y : Ranged lo hi) : Ranged lo hi := clamp x.lo_le_hi (x.val - y.val)

theorem val_saturatingAdd (x y : Ranged lo hi) :
    (x.saturatingAdd y).val = max lo (min (x.val + y.val) hi) := rfl

theorem val_saturatingSub (x y : Ranged lo hi) :
    (x.saturatingSub y).val = max lo (min (x.val - y.val) hi) := rfl

theorem val_saturatingAdd_of_le {x y : Ranged lo hi} (h₁ : lo ≤ x.val + y.val)
    (h₂ : x.val + y.val ≤ hi) : (x.saturatingAdd y).val = x.val + y.val := by
  rw [val_saturatingAdd]
  omega

/-! ### Checked arithmetic -/

/-- The integer `n` as a ranged one, if it is in range. -/
def ofInt? (lo hi n : ℤ) : Option (Ranged lo hi) :=
  if h : lo ≤ n ∧ n ≤ hi then some ⟨n, h.1, h.2⟩ else none

theorem ofInt?_eq_some_iff {n : ℤ} {x : Ranged lo hi} : ofInt? lo hi n = some x ↔ x.val = n := by
  unfold ofInt?
  constructor
  · intro h
    split at h
    · rw [← Option.some.inj h]
    · simp at h
  · rintro rfl
    rw [dif_pos ⟨x.lo_le, x.le_hi⟩]

/-- Multiplication that answers `none` when the product is out of range. -/
def checkedMul (x y : Ranged lo hi) : Option (Ranged lo hi) := ofInt? lo hi (x.val * y.val)

/-- Subtraction that answers `none` when the difference is out of range. -/
def checkedSub (x y : Ranged lo hi) : Option (Ranged lo hi) := ofInt? lo hi (x.val - y.val)

/-- Division towards zero, `none` by zero or out of range. -/
def checkedDiv (x y : Ranged lo hi) : Option (Ranged lo hi) :=
  if y.val = 0 then none else ofInt? lo hi (x.val.tdiv y.val)

theorem exists_checkedSub {x y : Ranged lo hi} (h₁ : lo ≤ x.val - y.val)
    (h₂ : x.val - y.val ≤ hi) : ∃ z, x.checkedSub y = some z :=
  ⟨⟨_, h₁, h₂⟩, ofInt?_eq_some_iff.mpr rfl⟩

/-- A product that is not below the range, with the greatest value for an overflow. -/
theorem val_getD_checkedMul {x y : Ranged lo hi} (top : Ranged lo hi)
    (htop : top.val = hi) (hlo : lo ≤ x.val * y.val) :
    ((x.checkedMul y).getD top).val = min (x.val * y.val) hi := by
  unfold checkedMul ofInt?
  split
  · next h => exact (min_eq_left h.2).symm
  · next h =>
    change top.val = _
    omega

/-! ### Wrapping arithmetic -/

/-- The integer `n` reduced into the range. -/
def wrap (h : lo ≤ hi) (n : ℤ) : Ranged lo hi :=
  ⟨lo + (n - lo) % (hi - lo + 1), by have := Int.emod_nonneg (n - lo) (b := hi - lo + 1); omega,
    by have := Int.emod_lt_of_pos (n - lo) (b := hi - lo + 1); omega⟩

/-- Addition modulo the size of the range. -/
def wrappingAdd (x y : Ranged lo hi) : Ranged lo hi := wrap x.lo_le_hi (x.val + y.val)

/-- Subtraction modulo the size of the range. -/
def wrappingSub (x y : Ranged lo hi) : Ranged lo hi := wrap x.lo_le_hi (x.val - y.val)

theorem val_wrap_of_mem (h : lo ≤ hi) {n : ℤ} (h₁ : lo ≤ n) (h₂ : n ≤ hi) :
    (wrap h n : Ranged lo hi).val = n := by
  change lo + (n - lo) % (hi - lo + 1) = n
  rw [Int.emod_eq_of_lt (by omega) (by omega)]
  omega

theorem val_wrappingAdd_of_le {x y : Ranged lo hi} (h₁ : lo ≤ x.val + y.val)
    (h₂ : x.val + y.val ≤ hi) : (x.wrappingAdd y).val = x.val + y.val :=
  val_wrap_of_mem _ h₁ h₂

theorem val_wrappingSub_of_le {x y : Ranged lo hi} (h₁ : lo ≤ x.val - y.val)
    (h₂ : x.val - y.val ≤ hi) : (x.wrappingSub y).val = x.val - y.val :=
  val_wrap_of_mem _ h₁ h₂

end Ranged

/-! ### The machine types -/

/-- A signed 128-bit integer. -/
abbrev I128 := Ranged (-170141183460469231731687303715884105728)
  170141183460469231731687303715884105727

/-- An unsigned 64-bit integer. -/
abbrev U64 := Ranged 0 18446744073709551615

/-- An unsigned 32-bit integer. -/
abbrev U32 := Ranged 0 4294967295

namespace I128

/-- The zero of the type. -/
instance : Zero I128 := ⟨.of 0⟩

/-- The one of the type. -/
instance : One I128 := ⟨.of 1⟩

@[simp] theorem val_zero : (0 : I128).val = 0 := rfl

@[simp] theorem val_one : (1 : I128).val = 1 := rfl

/-- The greatest value of the type. -/
def max : I128 := .of 170141183460469231731687303715884105727

@[simp] theorem val_max : max.val = 170141183460469231731687303715884105727 := rfl

theorem ne_max_iff {x : I128} : x ≠ max ↔ x.val < max.val := by
  rw [lt_iff_le_and_ne]
  exact ⟨fun hne => ⟨x.le_hi, fun heq => hne (Ranged.ext heq)⟩,
    fun hlt heq => hlt.2 (congrArg Ranged.val heq)⟩

/-- An unsigned 64-bit integer, widened. -/
def ofU64 (n : U64) : I128 := ⟨n.val, by have := n.lo_le; omega, by have := n.le_hi; omega⟩

/-- An unsigned 32-bit integer, widened. -/
def ofU32 (n : U32) : I128 := ⟨n.val, by have := n.lo_le; omega, by have := n.le_hi; omega⟩

@[simp] theorem val_ofU64 (n : U64) : (ofU64 n).val = n.val := rfl

@[simp] theorem val_ofU32 (n : U32) : (ofU32 n).val = n.val := rfl

end I128

namespace U64

/-- The zero of the type. -/
instance : Zero U64 := ⟨.of 0⟩

/-- The one of the type. -/
instance : One U64 := ⟨.of 1⟩

@[simp] theorem val_zero : (0 : U64).val = 0 := rfl

@[simp] theorem val_one : (1 : U64).val = 1 := rfl

/-- The greatest value of the type. -/
def max : U64 := .of 18446744073709551615

@[simp] theorem val_max : max.val = 18446744073709551615 := rfl

/-- A counter that is not at its end goes up by one. -/
theorem val_wrappingAdd_one {x : U64} (h : x < max) : (x.wrappingAdd 1).val = x.val + 1 := by
  have hlt : x.val < 18446744073709551615 := h
  have hlo := x.lo_le
  exact Ranged.val_wrappingAdd_of_le (by rw [val_one]; omega) (by rw [val_one]; omega)

end U64
