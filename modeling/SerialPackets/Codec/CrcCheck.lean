import SerialPackets.Lib.ShiftRegister
import SerialPackets.Model.Decoder

/-!
# What the CRC detects

The table-driven CRC is the bit-by-bit CRC-16/CCITT: a feedback shift register of 16 bits with the
polynomial `x¹⁶ + x¹² + x⁵ + 1`, started at `0xFFFF`. One table lookup is eight steps of the
register on a byte that has left it, which is a finite fact about the 256 constants; the rest is
linearity.

A body with its CRC appended most significant byte first takes the register to zero, and so does no
body that differs from it in an error which does not itself take the zero register to zero. This
gives the errors that the check of `process_packet` is certain to find.
-/

namespace SerialPackets

open FixedArray ShiftRegister

/-! ## The bit-by-bit CRC -/

/-- The bits of a byte sequence, the most significant bit of each byte first. -/
def bitsOf (bytes : List UInt8) : List Bool := bytes.flatMap fun b ↦ leading 8 b.toBitVec

/-- `x¹⁶ + x¹² + x⁵ + 1`, without its leading term. -/
def crcCcittPoly : BitVec 16 := 0x1021#16

/-- CRC-16/CCITT with start value `0xFFFF`, one bit at a time. -/
def bitwiseCrc16 (bytes : List UInt8) : UInt16 :=
  UInt16.ofBitVec (run crcCcittPoly 0xFFFF#16 (bitsOf bytes))

@[simp] theorem bitsOf_nil : bitsOf [] = [] := rfl

theorem bitsOf_cons (b : UInt8) (bytes : List UInt8) :
    bitsOf (b :: bytes) = leading 8 b.toBitVec ++ bitsOf bytes := rfl

theorem bitsOf_append (as bs : List UInt8) : bitsOf (as ++ bs) = bitsOf as ++ bitsOf bs :=
  List.flatMap_append

@[simp] theorem length_bitsOf (bytes : List UInt8) : (bitsOf bytes).length = 8 * bytes.length := by
  induction bytes with
  | nil => rfl
  | cons b bytes ih =>
    rw [bitsOf_cons, List.length_append, length_leading, ih, List.length_cons]
    omega

/-! ## The table -/

/-- The constants of the table are what the zero register makes of one byte. -/
private theorem crcCcittTable_get (i : Fin 256) :
    (crcCcittTable.get i).toBitVec
      = run crcCcittPoly 0#16 (leading 8 (BitVec.ofFin (w := 8) i)) := by
  -- compared as lists, so that the kernel walks the table once
  have htable : crcCcittTable.toList.map UInt16.toBitVec = (List.finRange 256).map
      fun i ↦ run crcCcittPoly 0#16 (leading 8 (BitVec.ofFin (w := 8) i)) := by
    decide +kernel
  have hentry := congrArg (fun entries ↦ entries[i.1]?) htable
  rw [List.getElem?_map, List.getElem?_map, Vector.getElem?_toList, Vector.getElem?_eq_getElem i.2,
    List.getElem?_eq_getElem (by simp), List.getElem_finRange] at hentry
  exact Option.some.inj hentry

private theorem leading_crcIndex (crc : UInt16) (b : UInt8) :
    xorBits (leading 8 crc.toBitVec) (leading 8 b.toBitVec)
      = leading 8 (BitVec.ofFin (w := 8) ⟨(crcIndex crc b).toNat, crcIndex_lt crc b⟩) := by
  have hindex : BitVec.ofFin (w := 8) ⟨(crcIndex crc b).toNat, crcIndex_lt crc b⟩
      = (crcIndex crc b).toBitVec.setWidth 8 := by
    apply BitVec.eq_of_toNat_eq
    rw [BitVec.toNat_setWidth]
    exact (Nat.mod_eq_of_lt (crcIndex_lt crc b)).symm
  rw [hindex, xorBits, leading, leading, leading, List.zipWith_map, List.zipWith_self]
  refine List.map_congr_left fun i hi ↦ ?_
  rw [List.mem_range] at hi
  rw [BitVec.getMsbD_setWidth, crcIndex, UInt16.toBitVec_xor, UInt16.toBitVec_shiftRight,
    UInt8.toBitVec_toUInt16, BitVec.getMsbD_xor, BitVec.getMsbD_setWidth]
  simp [BitVec.getMsbD_ushiftRight]
  omega

/-- **One table lookup is eight steps of the register.** -/
theorem toBitVec_crcStep (crc : UInt16) (b : UInt8) :
    (crcStep crc b).toBitVec = run crcCcittPoly crc.toBitVec (leading 8 b.toBitVec) := by
  rw [run_eq_xor, length_leading, leading_crcIndex, ← crcCcittTable_get, crcStep,
    UInt16.toBitVec_xor]
  rfl

private theorem toBitVec_foldl_crcStep (crc : UInt16) (bytes : List UInt8) :
    (bytes.foldl crcStep crc).toBitVec = run crcCcittPoly crc.toBitVec (bitsOf bytes) := by
  induction bytes generalizing crc with
  | nil => rfl
  | cons b bytes ih => rw [List.foldl_cons, ih, toBitVec_crcStep, bitsOf_cons, run_append]

/-- **The table-driven CRC is the bit-by-bit one**, and no lookup leaves the table. -/
theorem serialPacketsGenCrc16_eq_bitwiseCrc16 (buffer : List UInt8) :
    serialPacketsGenCrc16 buffer = bitwiseCrc16 buffer ∧
      ∀ (crc : UInt16) (b : UInt8), (crcIndex crc b).toNat < crcCcittTable.size := by
  refine ⟨?_, crcIndex_lt⟩
  apply UInt16.toBitVec_inj.mp
  exact toBitVec_foldl_crcStep 0xFFFF buffer

/-! ## Errors in a body -/

/-- `body` with the error pattern `error` xored into it. -/
def xorBytes (body error : List UInt8) : List UInt8 := List.zipWith (· ^^^ ·) body error

/-- An odd number of flipped bits, or flips in a window of 16 consecutive bits only. -/
def SmallError (error : List UInt8) : Prop :=
  Odd ((bitsOf error).count true) ∨
    ∃ i, ∀ j, (bitsOf error)[j]? = some true → i ≤ j ∧ j < i + 16

theorem bitsOf_xorBytes {body error : List UInt8} (h : body.length = error.length) :
    bitsOf (xorBytes body error) = xorBits (bitsOf body) (bitsOf error) := by
  induction body generalizing error with
  | nil => rw [List.length_eq_zero_iff.mp h.symm]; rfl
  | cons b body ih =>
    obtain ⟨e, error, rfl⟩ := List.exists_cons_of_length_eq_add_one h.symm
    have htail : bitsOf (xorBytes body error) = xorBits (bitsOf body) (bitsOf error) :=
      ih (Nat.succ.inj h)
    rw [xorBytes, List.zipWith_cons_cons, bitsOf_cons, bitsOf_cons, bitsOf_cons, xorBits,
      List.zipWith_append (by simp), ← xorBits, ← xorBits, xorBits_leading, UInt8.toBitVec_xor,
      ← htail, xorBytes]

theorem true_mem_bitsOf {error : List UInt8} (h : ∃ b ∈ error, b ≠ 0) : true ∈ bitsOf error := by
  obtain ⟨b, hb, hne⟩ := h
  rw [bitsOf, List.mem_flatMap]
  refine ⟨b, hb, ?_⟩
  by_contra hclear
  apply hne
  apply UInt8.toBitVec_inj.mp
  apply BitVec.eq_of_getMsbD_eq
  intro i hi
  rw [leading, List.mem_map, not_exists] at hclear
  have hbit := hclear i
  rw [List.mem_range] at hbit
  simpa using fun h ↦ hbit ⟨hi, h⟩

/-- The CRC is appended most significant byte first, so its bits are those of the register in
order. -/
private theorem bitsOf_bytes16 (v : UInt16) :
    bitsOf (BigEndian.bytes16 v) = leading 16 v.toBitVec := by
  have hhigh : leading 8 (v >>> 8).toUInt8.toBitVec = leading 8 v.toBitVec := by
    refine List.map_congr_left fun i hi ↦ ?_
    rw [List.mem_range] at hi
    rw [UInt16.toBitVec_toUInt8, UInt16.toBitVec_shiftRight, BitVec.getMsbD_setWidth]
    simp [BitVec.getMsbD_ushiftRight]
    omega
  have hlow : leading 8 (v >>> 0).toUInt8.toBitVec = leading 8 (v.toBitVec <<< 8) := by
    refine List.map_congr_left fun i _ ↦ ?_
    rw [UInt16.toBitVec_toUInt8, UInt16.shiftRight_zero, BitVec.getMsbD_setWidth]
    simp
  rw [BigEndian.bytes16, bitsOf_cons, bitsOf_cons, bitsOf_nil, List.append_nil, hhigh, hlow,
    ← leading_add]

/-- **The residue.** The register ends at zero on a body exactly when the body ends in its CRC. -/
theorem run_body_eq_zero_iff (covered : List UInt8) (v : UInt16) :
    run crcCcittPoly 0xFFFF#16 (bitsOf (covered ++ BigEndian.bytes16 v)) = 0#16 ↔
      v = serialPacketsGenCrc16 covered := by
  rw [bitsOf_append, run_append, bitsOf_bytes16, run_eq_zero_iff (by decide) (by simp)]
  have hcrc : run crcCcittPoly 0xFFFF#16 (bitsOf covered)
      = (serialPacketsGenCrc16 covered).toBitVec := (toBitVec_foldl_crcStep 0xFFFF covered).symm
  have hbit (i : ℕ) : (leading 16 v.toBitVec).getD i false = v.toBitVec.getMsbD i := by
    by_cases hi : i < 16
    · simp [leading, hi]
    · rw [BitVec.getMsbD_of_ge _ _ (by omega)]
      simp [leading, hi]
  rw [hcrc, ← UInt16.toBitVec_inj]
  constructor
  · intro h
    exact BitVec.eq_of_getMsbD_eq fun i _ ↦ by rw [h i, hbit]
  · intro h i
    rw [hbit, h]

theorem run_zero_ne_zero_of_smallError {error : List UInt8} (hne : ∃ b ∈ error, b ≠ 0)
    (hsmall : SmallError error) : run crcCcittPoly 0#16 (bitsOf error) ≠ 0#16 := by
  rcases hsmall with hodd | ⟨i, hwindow⟩
  · exact run_zero_ne_zero_of_odd (by decide) hodd
  · exact run_zero_ne_zero_of_window (by decide) (true_mem_bitsOf hne) hwindow

/-- **Small errors are found.** -/
theorem processPacket?_xorBytes {covered error : List UInt8} {load : ℕ → Option UInt8}
    (hlen : 2 ≤ covered.length) (herror : error.length = covered.length + 2)
    (hne : ∃ b ∈ error, b ≠ 0) (hsmall : SmallError error)
    (hload : Extends (fun i ↦
      (xorBytes (covered ++ BigEndian.bytes16 (serialPacketsGenCrc16 covered)) error)[i]?) load) :
    ∃ covered' crc, xorBytes (covered ++ BigEndian.bytes16 (serialPacketsGenCrc16 covered)) error
        = covered' ++ BigEndian.bytes16 crc ∧ crc ≠ serialPacketsGenCrc16 covered' ∧
      processPacket? load (covered.length + 2)
        = some (.error (.badCrc crc (serialPacketsGenCrc16 covered'))) := by
  have hbits := bitsOf_xorBytes
    (show (covered ++ BigEndian.bytes16 (serialPacketsGenCrc16 covered)).length = error.length by
      rw [List.length_append, BigEndian.length_bytes16, herror])
  have hlength : (xorBytes (covered ++ BigEndian.bytes16 (serialPacketsGenCrc16 covered))
      error).length = covered.length + 2 := by
    simp [xorBytes, herror]
  obtain ⟨covered', b₁, b₀, hsplit⟩ := exists_append_pair (hlength ▸ Nat.le_add_left 2 _)
  have hcrc : BigEndian.bytes16 (BigEndian.word16 b₁ b₀) = [b₁, b₀] :=
    BigEndian.bytes16_word16 b₁ b₀
  rw [hsplit, List.length_append] at hlength
  have hlength' : covered'.length = covered.length := Nat.add_right_cancel hlength
  -- the register at the end of the corrupted body is where the error alone takes it
  have hne_crc : BigEndian.word16 b₁ b₀ ≠ serialPacketsGenCrc16 covered' := by
    rw [Ne, ← run_body_eq_zero_iff, hcrc, ← hsplit, hbits,
      ← BitVec.xor_zero (x := 0xFFFF#16), run_xor _ _ _ (by simp [herror]),
      (run_body_eq_zero_iff covered _).mpr rfl, BitVec.zero_xor]
    exact run_zero_ne_zero_of_smallError hne hsmall
  refine ⟨covered', BigEndian.word16 b₁ b₀, by rw [hsplit, hcrc], hne_crc, ?_⟩
  apply processPacket?_of_extends hload
  rw [hsplit, ← hlength', processPacket?_append covered' b₁ b₀ (hlength' ▸ hlen), if_pos hne_crc]

/-- A message whose payload and CRC are hit by a burst of 16 bits across their boundary. -/
theorem processPacket?_xorBytes_burst :
    ∃ covered' crc, xorBytes ([0x03, 0x20, 0x11] ++ BigEndian.bytes16
        (serialPacketsGenCrc16 [0x03, 0x20, 0x11])) [0, 0, 0x81, 0x80, 0]
        = covered' ++ BigEndian.bytes16 crc ∧ crc ≠ serialPacketsGenCrc16 covered' ∧
      processPacket? (fun i ↦ (xorBytes ([0x03, 0x20, 0x11] ++ BigEndian.bytes16
          (serialPacketsGenCrc16 [0x03, 0x20, 0x11])) [0, 0, 0x81, 0x80, 0])[i]?) 5
        = some (.error (.badCrc crc (serialPacketsGenCrc16 covered'))) := by
  have hwindow : ∀ j < 40, (bitsOf [0, 0, 0x81, 0x80, 0])[j]? = some true →
      16 ≤ j ∧ j < 16 + 16 := by
    decide
  exact processPacket?_xorBytes (by decide) (by decide) ⟨0x81, by decide, by decide⟩
    (.inr ⟨16, fun j hj ↦ hwindow j (List.getElem?_eq_some_iff.mp hj).1 hj⟩) fun _ _ h ↦ h

end SerialPackets
