import Mathlib.Algebra.BigOperators.Group.List.Basic
import Mathlib.Algebra.BigOperators.Ring.Finset
import Mathlib.Algebra.Field.ZMod

/-!
# Feedback shift registers

A register of `w` bits that takes in one bit at a time. The top bit leaves; if it differs from the
incoming bit, a fixed word `poly` is xored into what is left. These are the bit-by-bit CRCs with the
most significant bit first, and the register holds the remainder of the input modulo the polynomial
of degree `w` whose lower coefficients are `poly`.

The register is linear over the field with two elements (`run_xor`). Two consequences carry the
results about error detection: with an odd `poly` no non-zero block of at most `w` bits takes the
zero register back to zero (`run_eq_zero_iff`), and with a `poly` of odd weight no block with an odd
number of ones does (`parity_run`).
-/

namespace ShiftRegister

variable {w : ℕ} (poly : BitVec w)

/-! ## The register -/

/-- One input bit. -/
def step (r : BitVec w) (b : Bool) : BitVec w :=
  if (r.msb ^^ b) = true then (r <<< 1) ^^^ poly else r <<< 1

/-- A block of input bits, first bit first. -/
def run (r : BitVec w) (bits : List Bool) : BitVec w := bits.foldl (step poly) r

/-- The first `n` bits of a word, most significant bit first. -/
def leading (n : ℕ) (x : BitVec w) : List Bool := (List.range n).map x.getMsbD

/-- The blocks `as` and `bs`, xored bit by bit. -/
def xorBits (as bs : List Bool) : List Bool := List.zipWith xor as bs

@[simp] theorem run_nil (r : BitVec w) : run poly r [] = r := rfl

@[simp] theorem run_cons (r : BitVec w) (b : Bool) (bits : List Bool) :
    run poly r (b :: bits) = run poly (step poly r b) bits := rfl

theorem run_append (r : BitVec w) (as bs : List Bool) :
    run poly r (as ++ bs) = run poly (run poly r as) bs := List.foldl_append

@[simp] theorem length_leading (n : ℕ) (x : BitVec w) : (leading n x).length = n := by
  rw [leading, List.length_map, List.length_range]

theorem leading_succ (n : ℕ) (x : BitVec w) : leading (n + 1) x = x.msb :: leading n (x <<< 1) := by
  rw [leading, List.range_succ_eq_map, List.map_cons, List.map_map, leading, BitVec.msb]
  refine congrArg _ (List.map_congr_left fun i _ ↦ ?_)
  rw [Function.comp_apply, BitVec.getMsbD_shiftLeft, Nat.succ_eq_add_one]

theorem leading_add (m n : ℕ) (x : BitVec w) :
    leading (m + n) x = leading m x ++ leading n (x <<< m) := by
  rw [leading, List.range_add, List.map_append, List.map_map, leading, leading]
  refine congrArg _ (List.map_congr_left fun i _ ↦ ?_)
  rw [Function.comp_apply, BitVec.getMsbD_shiftLeft, Nat.add_comm]

theorem xorBits_leading (n : ℕ) (x y : BitVec w) :
    xorBits (leading n x) (leading n y) = leading n (x ^^^ y) := by
  rw [xorBits, leading, leading, leading, List.zipWith_map, List.zipWith_self]
  exact List.map_congr_left fun i _ ↦ BitVec.getMsbD_xor.symm

/-! ## Linearity -/

theorem step_xor (r s : BitVec w) (a b : Bool) :
    step poly (r ^^^ s) (a ^^ b) = step poly r a ^^^ step poly s b := by
  have hbit : ((r ^^^ s).msb ^^ (a ^^ b)) = ((r.msb ^^ a) ^^ (s.msb ^^ b)) := by
    rw [BitVec.msb_xor]
    cases r.msb <;> cases s.msb <;> cases a <;> cases b <;> rfl
  rw [step, step, step, hbit, BitVec.shiftLeft_xor_distrib]
  cases r.msb ^^ a <;> cases s.msb ^^ b
  · rfl
  · exact BitVec.xor_assoc _ _ _
  · simp only [Bool.xor_false, if_true, Bool.false_eq_true, if_false]
    ac_rfl
  · have hcancel : (r <<< 1) ^^^ poly ^^^ ((s <<< 1) ^^^ poly) = (r <<< 1) ^^^ (s <<< 1) := by
      rw [BitVec.xor_comm (s <<< 1), BitVec.xor_assoc, ← BitVec.xor_assoc poly poly,
        BitVec.xor_self, BitVec.zero_xor]
    exact hcancel.symm

/-- **Linearity.** -/
theorem run_xor (r s : BitVec w) {as bs : List Bool} (h : as.length = bs.length) :
    run poly (r ^^^ s) (xorBits as bs) = run poly r as ^^^ run poly s bs := by
  induction as generalizing r s bs with
  | nil => rw [List.length_eq_zero_iff.mp h.symm]; rfl
  | cons a as ih =>
    obtain ⟨b, bs, rfl⟩ := List.exists_cons_of_length_eq_add_one h.symm
    rw [xorBits, List.zipWith_cons_cons, run_cons, run_cons, run_cons, step_xor]
    exact ih _ _ (Nat.succ.inj h)

theorem run_leading (n : ℕ) (r : BitVec w) : run poly r (leading n r) = r <<< n := by
  induction n generalizing r with
  | zero => exact (BitVec.shiftLeft_zero r).symm
  | succ n ih =>
    rw [leading_succ, run_cons, step, Bool.xor_self, if_neg Bool.false_ne_true, ih,
      ← BitVec.shiftLeft_add, Nat.add_comm]

/-- The register after `n` bits: what is left of it, and what the zero register makes of the bits
that leave xored with the ones that arrive. -/
theorem run_eq_xor (r : BitVec w) (bits : List Bool) :
    run poly r bits
      = (r <<< bits.length) ^^^ run poly 0#w (xorBits (leading bits.length r) bits) := by
  have hbits : xorBits (leading bits.length r) (xorBits (leading bits.length r) bits) = bits := by
    apply List.ext_getElem
    · simp [xorBits]
    · intro i h₁ h₂
      simp [xorBits]
  conv_lhs => rw [← BitVec.xor_zero (x := r), ← hbits]
  rw [run_xor poly r 0#w (by simp [xorBits]), run_leading]

theorem run_zero_replicate (n : ℕ) : run poly 0#w (List.replicate n false) = 0#w := by
  induction n with
  | zero => rfl
  | succ n ih =>
    have hstep : step poly 0#w false = 0#w := by simp [step]
    rw [List.replicate_succ, run_cons, hstep, ih]

/-! ## Odd polynomials: short blocks -/

section Odd

variable {poly} (hodd : poly.getLsbD 0 = true)

include hodd

private theorem eq_msb_of_step {r : BitVec w} {b : Bool} (hw : 0 < w)
    (h : (step poly r b).getMsbD (w - 1) = false) : r.msb = b ∧ step poly r b = r <<< 1 := by
  have hclear : (r <<< 1).getMsbD (w - 1) = false := by
    rw [BitVec.getMsbD_shiftLeft, Nat.sub_add_cancel hw]
    exact BitVec.getMsbD_of_ge r w (le_refl w)
  have hpoly : poly.getMsbD (w - 1) = true := by
    rw [BitVec.getMsbD_eq_getLsbD, Nat.sub_self, hodd, decide_eq_true (by omega)]
    rfl
  by_cases hbit : (r.msb ^^ b) = true
  · rw [step, if_pos hbit, BitVec.getMsbD_xor, hclear, hpoly] at h
    exact absurd h (by decide)
  · rw [step, if_neg hbit]
    exact ⟨by simpa using hbit, rfl⟩

/-- **Short blocks.** A block of at most `w` bits takes the register to zero exactly when it agrees
with the leading bits of the register and the other bits of the register are clear. -/
theorem run_eq_zero_iff {r : BitVec w} {bits : List Bool} (hlen : bits.length ≤ w) :
    run poly r bits = 0#w ↔ ∀ i, r.getMsbD i = bits.getD i false := by
  induction bits generalizing r with
  | nil =>
    rw [run_nil]
    constructor
    · rintro rfl i
      simp
    · intro h
      exact BitVec.eq_of_getMsbD_eq fun i _ ↦ by simpa using h i
  | cons b bits ih =>
    rw [List.length_cons] at hlen
    have hw : 0 < w := by omega
    have hlast : bits.getD (w - 1) false = false := by
      rw [List.getD_eq_getElem?_getD, List.getElem?_eq_none (by omega)]
      rfl
    rw [run_cons, ih (by omega)]
    constructor
    · intro h
      obtain ⟨hmsb, hstep⟩ := eq_msb_of_step hodd hw ((h (w - 1)).trans hlast)
      intro i
      cases i with
      | zero => exact hmsb
      | succ i =>
        have hi := h i
        rw [hstep, BitVec.getMsbD_shiftLeft] at hi
        exact hi
    · intro h i
      have hmsb : r.msb = b := h 0
      rw [step, hmsb, Bool.xor_self, if_neg Bool.false_ne_true, BitVec.getMsbD_shiftLeft]
      exact (h (i + 1)).trans (List.getD_cons_succ ..)

theorem run_replicate_eq_zero_iff {r : BitVec w} {n : ℕ} :
    run poly r (List.replicate n false) = 0#w ↔ r = 0#w := by
  rcases Nat.eq_zero_or_pos w with rfl | hw
  · exact iff_of_true (Subsingleton.elim _ _) (Subsingleton.elim _ _)
  induction n generalizing r with
  | zero => exact Iff.rfl
  | succ n ih =>
    have hone := @run_eq_zero_iff _ _ hodd r [false] hw
    have hzero := @run_eq_zero_iff _ _ hodd r [] (Nat.zero_le w)
    have hgetD (i : ℕ) : [false].getD i false = ([] : List Bool).getD i false := by
      cases i <;> rfl
    simp only [hgetD] at hone
    rw [List.replicate_succ, run_cons, ih]
    exact hone.trans hzero.symm

/-- **Bursts.** Bits with their ones inside a window of `w` do not take the zero register back to
zero. -/
theorem run_zero_ne_zero_of_window {bits : List Bool} {i : ℕ}
    (hone : true ∈ bits) (hwindow : ∀ j, bits[j]? = some true → i ≤ j ∧ j < i + w) :
    run poly 0#w bits ≠ 0#w := by
  have hbits : bits = List.replicate (bits.take i).length false ++ ((bits.drop i).take w
      ++ List.replicate ((bits.drop i).drop w).length false) := by
    have hfront : bits.take i = List.replicate (bits.take i).length false := by
      refine List.eq_replicate_iff.mpr ⟨rfl, fun b hb ↦ ?_⟩
      obtain ⟨j, hj, rfl⟩ := List.getElem_of_mem hb
      rw [List.length_take] at hj
      by_contra hne
      rw [Bool.not_eq_false, List.getElem_take] at hne
      have := hwindow j (by rw [List.getElem?_eq_getElem (by omega), hne])
      omega
    have hback : (bits.drop i).drop w = List.replicate ((bits.drop i).drop w).length false := by
      refine List.eq_replicate_iff.mpr ⟨rfl, fun b hb ↦ ?_⟩
      obtain ⟨j, hj, rfl⟩ := List.getElem_of_mem hb
      rw [List.length_drop, List.length_drop] at hj
      by_contra hne
      rw [Bool.not_eq_false, List.getElem_drop, List.getElem_drop] at hne
      have := hwindow (i + (w + j)) (by rw [List.getElem?_eq_getElem (by omega), hne])
      omega
    rw [← hfront, ← hback, List.take_append_drop, List.take_append_drop]
  intro hzero
  rw [hbits, run_append, run_zero_replicate, run_append, run_replicate_eq_zero_iff hodd,
    run_eq_zero_iff hodd (List.length_take_le _ _)] at hzero
  obtain ⟨j, hj, htrue⟩ := List.getElem_of_mem hone
  obtain ⟨hle, hlt⟩ := hwindow j (by rw [List.getElem?_eq_getElem hj, htrue])
  have hgetD := hzero (j - i)
  rw [List.getD_eq_getElem?_getD, List.getElem?_take_of_lt (by omega), List.getElem?_drop,
    Nat.add_sub_cancel' hle, List.getElem?_eq_getElem hj, htrue] at hgetD
  simp at hgetD

end Odd

/-! ## Polynomials of odd weight: parity -/

/-- One for a set bit, in the field with two elements. -/
def bit (b : Bool) : ZMod 2 := if b then 1 else 0

/-- The parity of the bits of a word. -/
def parity (r : BitVec w) : ZMod 2 := ∑ i ∈ Finset.range w, bit (r.getMsbD i)

theorem bit_xor (a b : Bool) : bit (a ^^ b) = bit a + bit b := by
  cases a <;> cases b <;> decide

theorem parity_xor (r s : BitVec w) : parity (r ^^^ s) = parity r + parity s := by
  simp only [parity, BitVec.getMsbD_xor, bit_xor, Finset.sum_add_distrib]

theorem parity_shiftLeft_one (r : BitVec w) : parity (r <<< 1) + bit r.msb = parity r := by
  have hlast : bit (r.getMsbD w) = 0 := by simp [bit]
  have hbits (i : ℕ) : (r <<< 1).getMsbD i = r.getMsbD (i + 1) := BitVec.getMsbD_shiftLeft ..
  simp only [parity, hbits, BitVec.msb]
  rw [← Finset.sum_range_succ' (fun i ↦ bit (r.getMsbD i)), Finset.sum_range_succ, hlast, add_zero]

/-- **Parity.** A polynomial of odd weight makes the parity of the register that of all the bits
taken in so far. -/
theorem parity_run {poly} (hpoly : parity poly = 1) (r : BitVec w) (bits : List Bool) :
    parity (run poly r bits) = parity r + (bits.count true : ℕ) := by
  induction bits generalizing r with
  | nil => simp
  | cons b bits ih =>
    have hstep : parity (step poly r b) = parity r + bit b := by
      rw [← parity_shiftLeft_one r, step]
      cases r.msb <;> cases b
      · simp [bit]
      · simp [bit, parity_xor, hpoly]
      · simp [bit, parity_xor, hpoly]
      · rw [Bool.xor_self, if_neg Bool.false_ne_true, add_assoc, ← bit_xor, Bool.xor_self]
        exact (add_zero _).symm
    rw [run_cons, ih, hstep, List.count_cons, Nat.cast_add, add_assoc, add_comm (bit b)]
    cases b <;> simp [bit]

/-- **Odd numbers of ones.** -/
theorem run_zero_ne_zero_of_odd {poly : BitVec w} (hpoly : parity poly = 1) {bits : List Bool}
    (hodd : Odd (bits.count true)) : run poly 0#w bits ≠ 0#w := by
  intro hzero
  have hparity := parity_run hpoly 0#w bits
  have hclear : parity 0#w = 0 := by simp [parity, bit]
  rw [hzero, hclear, zero_add] at hparity
  exact ZMod.natCast_ne_zero_iff_odd.mpr hodd hparity.symm

end ShiftRegister
