import Mathlib.Data.Nat.Basic
import Mathlib.Tactic.Linarith

/-!
# Clocks that wrap around

A free-running counter of `w` bits shows a true time, an unbounded natural number, modulo `2 ^ w`.
The unsigned difference of two readings is the true difference modulo `2 ^ w`; the signed one is
exact as long as the true difference is within half of that on either side. Neither statement cares
where the wrap lies relative to the two readings.
-/

namespace WrapClock

variable {w : ℕ}

/-- What a `w`-bit clock shows at true time `t`. -/
def reading (w t : ℕ) : BitVec w := BitVec.ofNat w t

theorem reading_add (t d : ℕ) : reading w (t + d) = reading w t + reading w d :=
  BitVec.ofNat_add t d

/-- The unsigned difference of two readings is the true difference modulo `2 ^ w`. -/
theorem toNat_sub_reading {t t₀ : ℕ} (h : t₀ ≤ t) :
    (reading w t - reading w t₀).toNat = (t - t₀) % 2 ^ w := by
  obtain ⟨d, rfl⟩ := Nat.exists_eq_add_of_le h
  rw [reading_add, BitVec.add_comm, BitVec.add_sub_cancel, Nat.add_sub_cancel_left, reading,
    BitVec.toNat_ofNat]

/-- **The signed distance is exact** within half a turn of the clock in either direction. -/
theorem distance_eq {t t₀ : ℕ} (hlo : -(2 ^ w : ℤ) ≤ 2 * ((t : ℤ) - t₀))
    (hhi : 2 * ((t : ℤ) - t₀) < 2 ^ w) :
    (reading w t - reading w t₀).toInt = (t : ℤ) - t₀ := by
  rw [reading, reading, BitVec.toInt_sub, BitVec.toInt_ofNat', BitVec.toInt_ofNat',
    Int.sub_bmod_bmod, Int.bmod_sub_bmod]
  apply Int.bmod_eq_of_le_mul_two
  · push_cast
    linarith
  · push_cast
    linarith

end WrapClock
