import Mathlib

/-!
# Byte strings

Byte strings are lists of bytes. A string whose length is part of its type is a
`BytesN n`. Integers are written to bytes big-endian, in two's complement, by
`beBytes`: the `n` low bytes of the integer, the most significant first, which is what
`to_be_bytes` of a signed or an unsigned type of `n` bytes writes.
-/

/-- A byte string of a known length. -/
structure BytesN (n : ℕ) where
  /-- The bytes. -/
  bytes : List UInt8
  /-- There are `n` of them. -/
  length_eq : bytes.length = n
  deriving DecidableEq

namespace BytesN

@[ext] theorem ext {n : ℕ} {x y : BytesN n} (h : x.bytes = y.bytes) : x = y := by
  cases x
  cases y
  simpa using h

/-- The string of `n` times the same byte. -/
def replicate (n : ℕ) (b : UInt8) : BytesN n := ⟨List.replicate n b, List.length_replicate⟩

end BytesN

/-- The `n` low bytes of an integer, most significant first. -/
def beBytes : ℕ → ℤ → List UInt8
  | 0, _ => []
  | n + 1, x => beBytes n (x / 256) ++ [UInt8.ofNat (x % 256).toNat]

@[simp] theorem length_beBytes (n : ℕ) (x : ℤ) : (beBytes n x).length = n := by
  induction n generalizing x with
  | zero => rfl
  | succ n ih => simp [beBytes, ih]

@[simp] theorem beBytes_zero (n : ℕ) : beBytes n 0 = List.replicate n 0 := by
  induction n with
  | zero => rfl
  | succ n ih =>
    rw [beBytes, Int.zero_ediv, ih, List.replicate_succ']
    rfl

/-- **Integers with the same bytes are congruent**, modulo the number of byte strings. -/
theorem modEq_of_beBytes_eq {n : ℕ} {x y : ℤ} (h : beBytes n x = beBytes n y) :
    x ≡ y [ZMOD 256 ^ n] := by
  induction n generalizing x y with
  | zero => exact Int.modEq_one
  | succ n ih =>
    obtain ⟨hhigh, hlow⟩ := List.append_inj h (by simp)
    have hbyte : x % 256 = y % 256 := by
      have hnat := congrArg UInt8.toNat (List.singleton_inj.mp hlow)
      have hx : (x % 256).toNat < UInt8.size := by
        change (x % 256).toNat < 256
        omega
      have hy : (y % 256).toNat < UInt8.size := by
        change (y % 256).toNat < 256
        omega
      rw [UInt8.toNat_ofNat_of_lt' hx, UInt8.toNat_ofNat_of_lt' hy] at hnat
      omega
    have hsum := ((ih hhigh).mul_left' (c := 256)).add_right (x % 256)
    rw [Int.mul_ediv_add_emod] at hsum
    rw [hbyte, Int.mul_ediv_add_emod, ← pow_succ'] at hsum
    exact hsum

/-- **Integers with the same bytes are equal**, if they lie in a range that is no longer. -/
theorem beBytes_inj_of_lt {n : ℕ} {x y lo : ℤ} (hx : lo ≤ x) (hy : lo ≤ y)
    (hx' : x < lo + 256 ^ n) (hy' : y < lo + 256 ^ n) (h : beBytes n x = beBytes n y) : x = y := by
  have hzero := Int.eq_zero_of_abs_lt_dvd (modEq_of_beBytes_eq h).dvd
    (abs_lt.mpr ⟨by omega, by omega⟩)
  omega
