import Mathlib.Algebra.Group.Nat.Defs
import Mathlib.Data.List.Basic

/-!
# Big-endian words

The two- and four-byte big-endian representations of machine words, as C code writes them: shifts
and truncating conversions one way, widening conversions, shifts and a bitwise or the other way.
Both directions are given their numeric value in base `256` once, and are mutually inverse.
-/

namespace BigEndian

/-- The two bytes of `v`, most significant first. -/
def bytes16 (v : UInt16) : List UInt8 := [(v >>> 8).toUInt8, (v >>> 0).toUInt8]

/-- The four bytes of `v`, most significant first. -/
def bytes32 (v : UInt32) : List UInt8 :=
  [(v >>> 24).toUInt8, (v >>> 16).toUInt8, (v >>> 8).toUInt8, (v >>> 0).toUInt8]

/-- The word with the given bytes. -/
def word16 (b₁ b₀ : UInt8) : UInt16 := (b₁.toUInt16 <<< 8) ||| (b₀.toUInt16 <<< 0)

def word32 (b₃ b₂ b₁ b₀ : UInt8) : UInt32 :=
  (b₃.toUInt32 <<< 24) ||| (b₂.toUInt32 <<< 16) ||| (b₁.toUInt32 <<< 8) ||| (b₀.toUInt32 <<< 0)

@[simp] theorem length_bytes16 (v : UInt16) : (bytes16 v).length = 2 := rfl

@[simp] theorem length_bytes32 (v : UInt32) : (bytes32 v).length = 4 := rfl

/-! ## Values in base 256 -/

theorem toNat_word16 (b₁ b₀ : UInt8) : (word16 b₁ b₀).toNat = b₁.toNat * 256 + b₀.toNat := by
  have h1 := b₁.toNat_lt
  have h0 : b₀.toNat < 2 ^ 8 := b₀.toNat_lt
  have hor := Nat.shiftLeft_add_eq_or_of_lt h0 b₁.toNat
  have hmod : b₁.toNat <<< 8 % 65536 = b₁.toNat <<< 8 := by
    rw [Nat.shiftLeft_eq]
    omega
  simp only [word16, UInt16.toNat_or, UInt16.toNat_shiftLeft, UInt8.toNat_toUInt16,
    UInt16.reduceToNat, Nat.reduceMod, Nat.reducePow, Nat.shiftLeft_zero, hmod]
  rw [Nat.mod_eq_of_lt (by omega), ← hor, Nat.shiftLeft_eq]

theorem toNat_word32 (b₃ b₂ b₁ b₀ : UInt8) :
    (word32 b₃ b₂ b₁ b₀).toNat
      = b₃.toNat * 16777216 + b₂.toNat * 65536 + b₁.toNat * 256 + b₀.toNat := by
  have h3 := b₃.toNat_lt
  have h2 := b₂.toNat_lt
  have h1 := b₁.toNat_lt
  have h0 := b₀.toNat_lt
  have hor2 := Nat.shiftLeft_add_eq_or_of_lt (i := 24) (b := b₂.toNat <<< 16)
    (by rw [Nat.shiftLeft_eq]; omega) b₃.toNat
  have hor1 := Nat.shiftLeft_add_eq_or_of_lt (i := 16) (b := b₁.toNat <<< 8)
    (by rw [Nat.shiftLeft_eq]; omega) (b₃.toNat * 256 + b₂.toNat)
  have hor0 := Nat.shiftLeft_add_eq_or_of_lt (i := 8) (b := b₀.toNat)
    (by omega) (b₃.toNat * 65536 + b₂.toNat * 256 + b₁.toNat)
  simp only [Nat.shiftLeft_eq, Nat.reducePow, Nat.add_mul, Nat.mul_assoc, Nat.reduceMul]
    at hor2 hor1 hor0
  simp only [word32, UInt32.toNat_or, UInt32.toNat_shiftLeft, UInt8.toNat_toUInt32,
    UInt32.reduceToNat, Nat.reduceMod, Nat.reducePow, Nat.shiftLeft_eq, Nat.mul_one]
  rw [Nat.mod_eq_of_lt (by omega), Nat.mod_eq_of_lt (by omega), Nat.mod_eq_of_lt (by omega),
    Nat.mod_eq_of_lt (by omega), ← hor2, ← hor1, ← hor0]

theorem toNat_byte16 (v : UInt16) (k : UInt16) (hk : k.toNat < 16) :
    (v >>> k).toUInt8.toNat = v.toNat / 2 ^ k.toNat % 256 := by
  rw [UInt16.toNat_toUInt8, UInt16.toNat_shiftRight, Nat.mod_eq_of_lt hk,
    Nat.shiftRight_eq_div_pow]

theorem toNat_byte32 (v : UInt32) (k : UInt32) (hk : k.toNat < 32) :
    (v >>> k).toUInt8.toNat = v.toNat / 2 ^ k.toNat % 256 := by
  rw [UInt32.toNat_toUInt8, UInt32.toNat_shiftRight, Nat.mod_eq_of_lt hk,
    Nat.shiftRight_eq_div_pow]

/-! ## Round trips -/

theorem word16_bytes16 (v : UInt16) :
    word16 (v >>> 8).toUInt8 (v >>> 0).toUInt8 = v := by
  have hv := v.toNat_lt
  rw [← UInt16.toNat_inj, toNat_word16, toNat_byte16 v 8 (by decide), toNat_byte16 v 0 (by decide)]
  simp only [UInt16.reduceToNat, Nat.reducePow, Nat.div_one]
  omega

theorem word32_bytes32 (v : UInt32) :
    word32 (v >>> 24).toUInt8 (v >>> 16).toUInt8 (v >>> 8).toUInt8 (v >>> 0).toUInt8 = v := by
  have hv := v.toNat_lt
  rw [← UInt32.toNat_inj, toNat_word32, toNat_byte32 v 24 (by decide),
    toNat_byte32 v 16 (by decide), toNat_byte32 v 8 (by decide), toNat_byte32 v 0 (by decide)]
  simp only [UInt32.reduceToNat, Nat.reducePow, Nat.div_one]
  omega

theorem bytes16_word16 (b₁ b₀ : UInt8) : bytes16 (word16 b₁ b₀) = [b₁, b₀] := by
  have h1 := b₁.toNat_lt
  have h0 := b₀.toNat_lt
  simp only [bytes16, List.cons.injEq, and_true, ← UInt8.toNat_inj]
  rw [toNat_byte16 _ 8 (by decide), toNat_byte16 _ 0 (by decide), toNat_word16]
  simp only [UInt16.reduceToNat, Nat.reducePow, Nat.div_one]
  omega

theorem bytes32_word32 (b₃ b₂ b₁ b₀ : UInt8) :
    bytes32 (word32 b₃ b₂ b₁ b₀) = [b₃, b₂, b₁, b₀] := by
  have h3 := b₃.toNat_lt
  have h2 := b₂.toNat_lt
  have h1 := b₁.toNat_lt
  have h0 := b₀.toNat_lt
  simp only [bytes32, List.cons.injEq, and_true, ← UInt8.toNat_inj]
  rw [toNat_byte32 _ 24 (by decide), toNat_byte32 _ 16 (by decide), toNat_byte32 _ 8 (by decide),
    toNat_byte32 _ 0 (by decide), toNat_word32]
  simp only [UInt32.reduceToNat, Nat.reducePow, Nat.div_one]
  omega

theorem bytes16_eq_iff {v : UInt16} {b₁ b₀ : UInt8} : bytes16 v = [b₁, b₀] ↔ v = word16 b₁ b₀ := by
  constructor
  · intro h
    simp only [bytes16, List.cons.injEq, and_true] at h
    rw [← h.1, ← h.2, word16_bytes16]
  · rintro rfl
    exact bytes16_word16 b₁ b₀

theorem bytes32_eq_iff {v : UInt32} {b₃ b₂ b₁ b₀ : UInt8} :
    bytes32 v = [b₃, b₂, b₁, b₀] ↔ v = word32 b₃ b₂ b₁ b₀ := by
  constructor
  · intro h
    simp only [bytes32, List.cons.injEq, and_true] at h
    rw [← h.1, ← h.2.1, ← h.2.2.1, ← h.2.2.2, word32_bytes32]
  · rintro rfl
    exact bytes32_word32 b₃ b₂ b₁ b₀

end BigEndian
