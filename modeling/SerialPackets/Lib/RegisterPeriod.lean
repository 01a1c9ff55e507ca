import Mathlib.Data.Nat.Prime.Basic
import Mathlib.Dynamics.PeriodicPts.Defs
import SerialPackets.Lib.ShiftRegister

/-!
# The period of a feedback shift register

A register that takes in a zero is multiplied by `x`, modulo its polynomial. With an odd polynomial
this is injective, so that the powers of `x` run through a cycle. Two ones in the input take the
zero register back to zero exactly if their distance is a period of this cycle
(`run_zero_eq_zero_iff_isPeriodicPt`), and so a register finds every pair of errors in a block that
is not longer than the cycle.

Powers far away are found by squaring (`iterate_turn_eq_power`), since a power is multiplied into
another one by Horner's rule (`iterate_turn_add`), and a period is known to be minimal from what
happens at its quotients by prime numbers.
-/

namespace Function

variable {α : Type*} {f : α → α} {a : α} {n : ℕ}

/-- A period is minimal if no quotient of it by a prime number is a period. -/
theorem minimalPeriod_eq_of_prime (h : IsPeriodicPt f n a)
    (hprime : ∀ p, p.Prime → p ∣ n → ¬IsPeriodicPt f (n / p) a) : minimalPeriod f a = n := by
  obtain ⟨m, hm⟩ := h.minimalPeriod_dvd
  by_cases hone : m = 1
  · rw [hm, hone, mul_one]
  · obtain ⟨p, hp, q, rfl⟩ := Nat.exists_prime_and_dvd hone
    have hquotient : n / p = minimalPeriod f a * q := by
      rw [hm, ← mul_assoc, mul_comm _ p, mul_assoc, Nat.mul_div_cancel_left _ hp.pos]
    have hdvd : p ∣ n := by
      rw [hm]
      exact (dvd_mul_right p q).mul_left _
    refine absurd ?_ (hprime p hp hdvd)
    rw [hquotient]
    exact (isPeriodicPt_minimalPeriod f a).mul_const q

end Function

namespace ShiftRegister

open Function

variable {w : ℕ} (poly : BitVec w)

/-! ## Zeros -/

/-- A zero is taken in. -/
def turn (r : BitVec w) : BitVec w := step poly r false

theorem turn_xor (r s : BitVec w) : turn poly (r ^^^ s) = turn poly r ^^^ turn poly s :=
  step_xor poly r s false false

theorem iterate_turn_xor (n : ℕ) (r s : BitVec w) :
    (turn poly)^[n] (r ^^^ s) = (turn poly)^[n] r ^^^ (turn poly)^[n] s := by
  induction n generalizing r s with
  | zero => rfl
  | succ n ih => rw [iterate_succ_apply, iterate_succ_apply, iterate_succ_apply, turn_xor, ih]

theorem run_replicate_false (n : ℕ) (r : BitVec w) :
    run poly r (List.replicate n false) = (turn poly)^[n] r := by
  induction n generalizing r with
  | zero => rfl
  | succ n ih => rw [List.replicate_succ, run_cons, ih, iterate_succ_apply, turn]

theorem step_eq_turn_xor (r : BitVec w) (b : Bool) :
    step poly r b = turn poly r ^^^ if b then poly else 0#w := by
  have hstep := step_xor poly r 0#w false b
  rw [BitVec.xor_zero, Bool.false_xor] at hstep
  rw [hstep, turn]
  cases b <;> simp [step]

/-! ## Products -/

/-- The word `u` times the polynomial with these coefficients, by Horner's rule. -/
def horner (u : BitVec w) (bits : List Bool) : BitVec w :=
  bits.foldl (fun r b ↦ turn poly r ^^^ if b then u else 0#w) 0#w

theorem run_zero_eq_horner (bits : List Bool) : run poly 0#w bits = horner poly poly bits := by
  rw [run, horner]
  congr 1
  funext r b
  exact step_eq_turn_xor poly r b

theorem iterate_turn_horner (n : ℕ) (u : BitVec w) (bits : List Bool) :
    (turn poly)^[n] (horner poly u bits) = horner poly ((turn poly)^[n] u) bits := by
  have hzero : (turn poly)^[n] 0#w = 0#w := by
    rw [← run_replicate_false, run_zero_replicate]
  -- from any register, as the accumulator changes
  suffices hfold : ∀ r, (turn poly)^[n]
      (bits.foldl (fun r b ↦ turn poly r ^^^ if b then u else 0#w) r)
        = bits.foldl (fun r b ↦ turn poly r ^^^ if b then (turn poly)^[n] u else 0#w)
          ((turn poly)^[n] r) by
    rw [horner, horner, hfold, hzero]
  induction bits with
  | nil => exact fun _ ↦ rfl
  | cons b bits ih =>
    intro r
    rw [List.foldl_cons, List.foldl_cons, ih, iterate_turn_xor, ← iterate_succ_apply,
      iterate_succ_apply']
    cases b
    · rw [if_neg Bool.false_ne_true, if_neg Bool.false_ne_true, hzero]
    · rw [if_pos rfl, if_pos rfl]

/-! ## The cycle of an odd polynomial -/

section Odd

variable {poly} (hodd : poly.getLsbD 0 = true)

include hodd

theorem turn_injective : Injective (turn poly) := by
  intro r s h
  have hzero : run poly (r ^^^ s) (List.replicate 1 false) = 0#w := by
    rw [run_replicate_false, iterate_one, turn_xor, h, BitVec.xor_self]
  exact BitVec.xor_eq_zero_iff.mp ((run_replicate_eq_zero_iff hodd).mp hzero)

variable (hone : (turn poly)^[w] 1#w = poly)

include hone

theorem horner_one_leading (r : BitVec w) : horner poly 1#w (leading w r) = r := by
  apply (turn_injective hodd).iterate w
  have hbits : xorBits (leading w r) (List.replicate w false) = leading w r := by
    apply List.ext_getElem
    · simp [xorBits]
    · intro i h₁ h₂
      simp [xorBits]
  have hrun := run_eq_xor poly r (List.replicate w false)
  rw [List.length_replicate, hbits, BitVec.shiftLeft_eq_zero (le_refl w), BitVec.zero_xor,
    run_replicate_false] at hrun
  rw [iterate_turn_horner, hone, ← run_zero_eq_horner, hrun]

/-- **Powers multiply.** -/
theorem iterate_turn_add (m n : ℕ) :
    (turn poly)^[m + n] 1#w
      = horner poly ((turn poly)^[m] 1#w) (leading w ((turn poly)^[n] 1#w)) := by
  rw [iterate_add_apply, ← iterate_turn_horner, horner_one_leading hodd hone]

omit hodd hone in
/-- The power whose exponent has these binary digits, the lowest first, by squaring. -/
def power (poly : BitVec w) : List Bool → BitVec w
  | [] => 1#w
  | b :: digits => (turn poly)^[b.toNat] (horner poly (power poly digits)
      (leading w (power poly digits)))

theorem iterate_turn_eq_power (digits : List Bool) :
    (turn poly)^[digits.foldr (fun b n ↦ b.toNat + (n + n)) 0] 1#w = power poly digits := by
  induction digits with
  | nil => rfl
  | cons b digits ih =>
    rw [List.foldr_cons, iterate_add_apply, iterate_turn_add hodd hone, ih, power]

/-! ## Two ones -/

/-- **Two ones** leave the zero register at zero exactly if their distance is a period. -/
theorem run_zero_eq_zero_iff_isPeriodicPt (i k n : ℕ) :
    run poly 0#w (List.replicate i false
        ++ true :: (List.replicate k false ++ true :: List.replicate n false)) = 0#w ↔
      IsPeriodicPt (turn poly) (k + 1) 1#w := by
  have hfirst : step poly 0#w true = poly := by
    have hturn : turn poly 0#w = 0#w := by simp [turn, step]
    rw [step_eq_turn_xor, hturn, BitVec.zero_xor, if_pos rfl]
  have hsecond (k : ℕ) : turn poly ((turn poly)^[k] poly)
      = (turn poly)^[w] ((turn poly)^[k + 1] 1#w) := by
    calc turn poly ((turn poly)^[k] poly) = (turn poly)^[k + 1] poly :=
          (iterate_succ_apply' ..).symm
      _ = (turn poly)^[k + 1] ((turn poly)^[w] 1#w) := by rw [hone]
      _ = (turn poly)^[w] ((turn poly)^[k + 1] 1#w) := by
          rw [← iterate_add_apply, add_comm, iterate_add_apply]
  rw [run_append, run_zero_replicate, run_cons, hfirst, run_append, run_replicate_false, run_cons,
    run_replicate_eq_zero_iff hodd, step_eq_turn_xor, if_pos rfl, BitVec.xor_eq_zero_iff, hsecond]
  constructor
  · intro h
    exact (turn_injective hodd).iterate w (h.trans hone.symm)
  · intro h
    exact (congrArg _ h).trans hone

omit hodd hone in
theorem exists_first_true {bits : List Bool} {n : ℕ} (h : bits.count true = n + 1) :
    ∃ i rest, bits = List.replicate i false ++ true :: rest ∧ rest.count true = n := by
  induction bits with
  | nil => exact absurd h.symm (Nat.succ_ne_zero n)
  | cons b bits ih =>
    cases b with
    | true =>
      rw [List.count_cons_self] at h
      exact ⟨0, bits, rfl, Nat.succ_injective h⟩
    | false =>
      rw [List.count_cons_of_ne Bool.false_ne_true] at h
      obtain ⟨i, rest, rfl, hrest⟩ := ih h
      exact ⟨i + 1, rest, rfl, hrest⟩

/-- **Pairs of errors.** Two ones in a block that is not longer than the cycle do not take the zero
register back to zero. -/
theorem run_zero_ne_zero_of_two {bits : List Bool} (hcount : bits.count true = 2)
    (hlen : bits.length ≤ minimalPeriod (turn poly) 1#w) : run poly 0#w bits ≠ 0#w := by
  obtain ⟨i, rest, rfl, hrest⟩ := exists_first_true hcount
  obtain ⟨k, tail, rfl, htail⟩ := exists_first_true hrest
  have hzeros : tail = List.replicate tail.length false := by
    refine List.eq_replicate_iff.mpr ⟨rfl, fun b hb ↦ ?_⟩
    cases b with
    | false => rfl
    | true => exact absurd hb (List.count_eq_zero.mp htail)
  rw [List.length_append, List.length_replicate, List.length_cons, List.length_append,
    List.length_replicate, List.length_cons] at hlen
  rw [hzeros, Ne, run_zero_eq_zero_iff_isPeriodicPt hodd hone]
  exact not_isPeriodicPt_of_pos_of_lt_minimalPeriod (Nat.succ_ne_zero k) (by omega)

end Odd

end ShiftRegister
